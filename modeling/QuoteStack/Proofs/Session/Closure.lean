import QuoteStack.Proofs.Run.Fresh
import QuoteStack.Proofs.Session.Activity

/-!
Closures stay. The root counts the names of closures for all environments of a tree, so no name is
made up twice, wherever its closure is made and however that run ends. A name that is bound to a new
closure stays bound to it, until the host binds the name there itself: everything else that is bound
is another name, or is bound elsewhere. So dispatching the name executes the block of the closure,
in every environment in which nothing nearer goes by that name. The main statement is
`Scene.closures_stable`.
-/

namespace QuoteStack

/-! ## Bindings of an environment -/

namespace Tree

variable {tree : Tree} {place : Nat} {name : String} {cell : Cell}

/-- From the first place on outwards, no environment before the one at the second place binds the
name. -/
def IsNearest (tree : Tree) (place : Nat) (name : String) (owner : Nat) : Prop :=
  ∃ environment near far, tree.environments[place]? = some environment ∧
    place :: environment.ancestors = near ++ owner :: far ∧
    ∀ nearer ∈ near, tree.cellAt? nearer name = none

/-- What runs at a place finds a name in the nearest environment that binds it. -/
theorem Shows.find?_of_nearest {m : Machine} (h : tree.Shows place m) {owner : Nat}
    (hnearest : tree.IsNearest place name owner) (hbound : tree.cellAt? owner name = some cell) :
    m.find? name = some cell := by
  obtain ⟨environment, near, far, hplace, hchain, hnear⟩ := hnearest
  rw [← h.found, findAt?_eq hplace, ← findAmong?_cons hplace, hchain]
  show (near ++ owner :: far).findSome? (fun place => tree.cellAt? place name) = some cell
  rw [List.findSome?_append, List.findSome?_eq_none_iff.mpr hnear, Option.none_or,
    List.findSome?_cons, hbound]

/-- A binding outlasts what is put back at other places, or with the same binding. -/
theorem cellAt?_update (hbound : tree.cellAt? place name = some cell) {other : Nat} {m : Machine}
    (hm : other = place → m.scope.own.find? name = some cell) :
    (tree.update other m).cellAt? place name = some cell := by
  rw [cellAt?, getElem?_update]
  by_cases heq : other = place
  · obtain ⟨environment, hplace, -⟩ := Option.bind_eq_some_iff.mp hbound
    rw [if_pos heq, hplace]
    exact hm heq
  · rw [if_neg heq]
    exact hbound

theorem cellAt?_addChild (hbound : tree.cellAt? place name = some cell) (other : Nat) :
    (tree.addChild other).cellAt? place name = some cell := by
  rw [cellAt?, getElem?_addChild tree other (lt_size_of_cellAt? hbound)]
  exact hbound

end Tree

/-- A step of a run keeps a binding unless it binds the name at the same place. -/
theorem Run.Fits.cellAt?_after {tree : Tree} {run : Run} {t : Moment} (h : run.Fits tree)
    (hnext : run.moment.next? = some t) {place : Nat} {name : String} {cell : Cell}
    (hbound : tree.cellAt? place name = some cell)
    (hother : ∀ found, run.place = place → run.moment.effect ≠ .bind name found) :
    (run.after tree t).1.cellAt? place name = some cell := by
  have hhere : run.place = place → run.moment.machine.scope.own.find? name = some cell := by
    intro hplace
    rw [← h.shows.cellAt?_eq name, hplace]
    exact hbound
  have haffects := Moment.affects_of_next? hnext
  generalize heffect : run.moment.effect = e at haffects
  cases haffects with
  | nothing hscope =>
    rw [after_of_stay (by simp [heffect]) (by simp [heffect])]
    apply Tree.cellAt?_update hbound
    rw [hscope]
    exact hhere
  | mint _ hafter =>
    rw [after_of_stay (by simp [heffect]) (by simp [heffect]), hafter]
    exact Tree.cellAt?_update hbound hhere
  | @bind other found _ _ hafter =>
    rw [after_of_stay (by simp [heffect]) (by simp [heffect]), hafter]
    apply Tree.cellAt?_update hbound
    intro hplace
    have hne : name ≠ other := by
      rintro rfl
      exact hother found hplace heffect
    show (run.moment.machine.scope.own.set other found).find? name = some cell
    rw [Registers.find?_set, if_neg hne]
    exact hhere hplace
  | enter _ hafter =>
    rw [after_of_enter heffect]
    apply Tree.cellAt?_update (Tree.cellAt?_addChild hbound run.place)
    -- the child is no place that has been there before
    have hlt := Tree.lt_size_of_cellAt? hbound
    intro hplace
    omega
  | @leave stack scope hbefore hafter =>
    have haround := h.around
    rw [hbefore] at haround
    obtain ⟨outer, waiting, houter, -, hwaiting⟩ := List.forall₂_cons_right_iff.mp haround
    rw [after_of_leave heffect hwaiting, hafter]
    apply Tree.cellAt?_update hbound
    rintro rfl
    rw [← hbound, houter.cellAt?_eq name]

namespace Scene

/-! ## Names of closures -/

/-- The next step makes up the name. -/
def Makes (scene : Scene) (name : String) : Prop :=
  ∃ run, scene.run? = some run ∧ run.makes? = some name

/-- The next step binds the name at the place, and it is not a name that has just been made up. -/
def HostSets (scene : Scene) (place : Nat) (name : String) : Prop :=
  ∃ run cell, scene.run? = some run ∧ run.place = place ∧ run.moment.effect = .bind name cell ∧
    scene.made? ≠ some name

/-- The second scene comes after the first, and on the way the host does not set the name at the
place. -/
def ReachesUnset (place : Nat) (name : String) : Scene → Scene → Prop :=
  Relation.ReflTransGen fun scene next => scene.Step next ∧ ¬ scene.HostSets place name

variable {scene next last : Scene}

theorem exists_of_makes {name : String} (hmakes : scene.Makes name) :
    ∃ run, scene.run? = some run ∧ run.moment.effect = .mint ∧
      name = Machine.closureName run.moment.machine.root.minted := by
  obtain ⟨run, hrun, hmakes⟩ := hmakes
  unfold Run.makes? at hmakes
  split at hmakes
  · next hmint => exact ⟨run, hrun, hmint, (Option.some.inj hmakes).symm⟩
  · cases hmakes

/-- A name that is made up has the next number. -/
theorem Sound.eq_of_makes (h : scene.Sound) {name : String} (hmakes : scene.Makes name) :
    name = Machine.closureName scene.tree.root.minted := by
  obtain ⟨run, hrun, -, hname⟩ := exists_of_makes hmakes
  rw [hname, (h.fits run hrun).shows.root]

/-- The count of names never falls. -/
theorem Sound.minted_le (h : scene.Sound) (hstep : scene.Step next) :
    scene.tree.root.minted ≤ next.tree.root.minted := by
  cases hstep with
  | @go tree run made? t hnext =>
    show tree.root.minted ≤ (run.after tree t).1.root.minted
    rw [Run.root_after, (h.fits run rfl).shows.root]
    exact Moment.minted_le_of_next? hnext
  | child tree made? place =>
    show tree.root.minted ≤ (tree.addChild place).root.minted
    rw [Tree.addChild]
    cases tree.environments[place]? <;> exact Nat.le_refl _
  | _ => exact Nat.le_refl _

theorem Sound.minted_le_of_reaches (h : scene.Sound) (hlast : Reaches scene last) :
    scene.tree.root.minted ≤ last.tree.root.minted := by
  induction hlast with
  | refl => exact Nat.le_refl _
  | @tail middle last hmiddle hstep ih =>
    have hle := (h.of_reaches hmiddle).minted_le hstep
    omega

/-- Making up a name counts it. -/
theorem Sound.minted_lt (h : scene.Sound) {name : String} (hmakes : scene.Makes name)
    (hstep : scene.Step next) : scene.tree.root.minted < next.tree.root.minted := by
  obtain ⟨run, hrun, hmint, -⟩ := exists_of_makes hmakes
  obtain ⟨rest, hactivity⟩ := Moment.exists_of_effect_mint hmint
  cases hstep with
  | @go tree running made? t hnext =>
    obtain rfl := Option.some.inj hrun
    rw [Moment.next?, hactivity] at hnext
    obtain rfl := Option.some.inj hnext
    show tree.root.minted < (running.after tree _).1.root.minted
    rw [Run.root_after, (h.fits running rfl).shows.root]
    exact Nat.lt_succ_self _
  | @finish tree running made? hend =>
    obtain rfl := Option.some.inj hrun
    rw [Moment.next?, hactivity] at hend
    cases hend
  | begin => cases hrun
  | child => cases hrun
  | note => cases hrun

/-- Names that are made up one after the other differ. -/
theorem Sound.ne_of_makes (h : scene.Sound) {name other : String} (hmakes : scene.Makes name)
    (hstep : scene.Step next) (hlast : Reaches next last) (hother : last.Makes other) :
    name ≠ other := by
  have hnext := h.step hstep
  have hless := h.minted_lt hmakes hstep
  have hle := hnext.minted_le_of_reaches hlast
  rw [h.eq_of_makes hmakes, (hnext.of_reaches hlast).eq_of_makes hother]
  intro heq
  have hsame := Machine.closureName_injective heq
  omega

/-! ## Programs on their own -/

/-- The run in progress has native procedures only, and binds a name only right after it has been
made up. -/
structure IsNative (scene : Scene) : Prop where
  native : ∀ run, scene.run? = some run → run.moment.IsNative
  made : ∀ run name cell next, scene.run? = some run →
    run.moment.activity = .procedure (.register name cell next) → scene.made? = some name

/-- A program begins with no name to bind. -/
theorem isNative_begun {tree : Tree} {place : Nat} {m : Machine} (hview : tree.view? place = some m)
    (hm : m.IsNative) (program : List Instruction) :
    (begun tree place (.program program)).IsNative := by
  rw [begun, hview]
  refine ⟨fun run hrun => ?_, fun run name cell next hrun hactivity => ?_⟩
  · obtain rfl := Option.some.inj hrun
    exact ⟨trivial, fun frame hframe => absurd hframe List.not_mem_nil, hm⟩
  · obtain rfl := Option.some.inj hrun
    cases hactivity

theorem IsNative.later (h : scene.IsNative) (n : Nat) : (scene.later n).IsNative := by
  induction n generalizing scene with
  | zero => exact h
  | succ n ih =>
    obtain ⟨tree, run?, made?⟩ := scene
    cases run? with
    | none => exact h
    | some run =>
      rw [Scene.later]
      cases hnext : run.moment.next? with
      | none => exact h
      | some t =>
        have hnative := h.native run rfl
        apply ih
        refine ⟨fun after hafter => ?_, fun after name cell next hafter hactivity => ?_⟩
        · obtain rfl := Option.some.inj hafter
          rw [Run.moment_after]
          exact hnative.next hnext
        · obtain rfl := Option.some.inj hafter
          rw [Run.moment_after] at hactivity
          obtain ⟨hmint, hname⟩ := hnative.makes_of_register hnext hactivity
          show run.makes? = some name
          rw [Run.makes?, hmint, hname]

theorem IsNative.not_hostSets (h : scene.IsNative) (place : Nat) (name : String) :
    ¬ scene.HostSets place name := by
  rintro ⟨run, cell, hrun, -, hbind, hmade⟩
  obtain ⟨next, hactivity⟩ := Moment.exists_of_effect_bind hbind
  exact hmade (h.made run name cell next hrun hactivity)

/-! ## Closures that stay -/

/-- The environment at a place binds the name of a number that has been used to a cell, and nothing
but the host is going to bind it to something else. -/
structure Keeps (place number : Nat) (cell : Cell) (scene : Scene) : Prop where
  sound : scene.Sound
  bound : scene.tree.cellAt? place (Machine.closureName number) = some cell
  used : number < scene.tree.root.minted
  settled : scene.made? ≠ some (Machine.closureName number)

variable {place number : Nat} {cell : Cell}

theorem Keeps.step (h : Keeps place number cell scene) (hstep : scene.Step next)
    (hunset : ¬ scene.HostSets place (Machine.closureName number)) :
    Keeps place number cell next := by
  have hsound := h.sound.step hstep
  have hused : number < next.tree.root.minted :=
    Nat.lt_of_lt_of_le h.used (h.sound.minted_le hstep)
  cases hstep with
  | @go tree run made? t hnext =>
    refine ⟨hsound, ?_, hused, ?_⟩
    · apply (h.sound.fits run rfl).cellAt?_after hnext h.bound
      intro found hplace hbind
      exact hunset ⟨run, found, rfl, hplace, hbind, h.settled⟩
    · -- a name that is made up now has a greater number
      intro hmade
      have heq := h.sound.eq_of_makes ⟨run, rfl, hmade⟩
      have hsame := Machine.closureName_injective heq
      have hless := h.used
      omega
  | child tree made? other =>
    have hbound := Tree.cellAt?_addChild h.bound other
    exact ⟨hsound, hbound, hused, (Option.some_ne_none _).symm⟩
  | begin => exact ⟨hsound, h.bound, hused, (Option.some_ne_none _).symm⟩
  | finish => exact ⟨hsound, h.bound, hused, (Option.some_ne_none _).symm⟩
  | note => exact ⟨hsound, h.bound, hused, (Option.some_ne_none _).symm⟩

theorem Keeps.of_reaches (h : Keeps place number cell scene)
    (hlast : ReachesUnset place (Machine.closureName number) scene last) :
    Keeps place number cell last := by
  induction hlast with
  | refl => exact h
  | tail _ hnext ih => exact ih.step hnext.1 hnext.2

/-- Where a closure is made, the block gets bound to a name that is made up on the way. -/
theorem Sound.makes_closure (h : scene.Sound) {run : Run} (hrun : scene.run? = some run)
    (hdo : run.moment.activity = .procedure Builtin.makeClosure) {items rest : List Value}
    (hstack : run.moment.machine.stack = .block items :: rest) :
    (scene.later 1).Makes run.moment.machine.nextName ∧
      Keeps run.place run.moment.machine.root.minted (.external (.executeAll items))
        (scene.later 3) := by
  obtain ⟨tree, run?, made?⟩ := scene
  obtain rfl : run? = some run := hrun
  obtain ⟨⟨activity, frames, ⟨stack, scope, root⟩⟩, place, waiting⟩ := run
  obtain rfl : activity = .procedure Builtin.makeClosure := hdo
  obtain rfl : stack = .block items :: rest := hstack
  have hsound := h.of_reaches (reaches_later 3 _)
  refine ⟨⟨_, rfl, rfl⟩, hsound, ?_, Nat.lt_succ_self _, (Option.some_ne_none _).symm⟩
  have hshows := (hsound.fits _ rfl).shows
  refine (hshows.cellAt?_eq _).trans ?_
  exact (Registers.find?_set ..).trans (if_pos rfl)

/-! ## The main statement -/

/-- Whatever happens in a tree, closures are stable. Everything that the host may do with an
environment is a run, and the run of a program that finds no procedures of the host sets no names as
the host does. Names of closures that are made up at different times differ. Wherever a
closure of a block is made, its name is made up and, two steps later, bound to it in the environment
of the moment. From then on, unless the host itself sets the name there, it stays bound to the
closure there; and dispatching it, below the limit, there or where no nearer environment binds the
name, executes the block where it is dispatched, and wraps the fault. -/
theorem closures_stable {tree : Tree} (hordered : tree.IsOrdered)
    (hscene : Reaches (start tree) scene) :
    (∀ place m (action : Action), scene.run? = none → scene.tree.view? place = some m →
      ∃ after, Reaches scene ⟨after, none, none⟩ ∧
        after.root = (action.perform m.fresh).2.root ∧
        ∀ other < scene.tree.environments.size, after.environments[other]? =
          (scene.tree.update place (action.perform m.fresh).2).environments[other]?) ∧
    (∀ place m program n, scene.run? = none → scene.tree.view? place = some m → m.IsNative →
      let during := (begun scene.tree place (.program program)).later n
      Reaches scene during ∧ ∀ owner name, ¬ during.HostSets owner name) ∧
    (∀ name next last other, scene.Makes name → scene.Step next → Reaches next last →
      last.Makes other → name ≠ other) ∧
    ∀ run items rest, scene.run? = some run →
      run.moment.activity = .procedure Builtin.makeClosure →
      run.moment.machine.stack = .block items :: rest →
      let name := run.moment.machine.nextName
      (scene.later 1).Makes name ∧
        ∀ last, ReachesUnset run.place name (scene.later 3) last →
          last.tree.cellAt? run.place name = some (.external (.executeAll items)) ∧
          ∀ place m, last.tree.Shows place m → last.tree.IsNearest place name run.place →
            (m.root.depth : Int) < m.root.limits.callLimit →
            m.dispatch name =
              (((m.enter.emit (.called name)).execute (items.map .value)).mapMachine
                Machine.leave).wrap := by
  have hsound := (sound_idle hordered none).of_reaches hscene
  refine ⟨?_, ?_, ?_, ?_⟩
  · intro place m action hidle hview
    obtain ⟨tree, run?, made?⟩ := scene
    obtain rfl : run? = none := hidle
    exact reaches_perform hsound.ordered hview made? action
  · intro place m program n hidle hview hm during
    obtain ⟨tree, run?, made?⟩ := scene
    obtain rfl : run? = none := hidle
    have hbegun := step_begun (Option.isSome_of_eq_some hview) made? (.program program)
    refine ⟨.head hbegun (reaches_later n _), ?_⟩
    exact ((isNative_begun hview hm program).later n).not_hostSets
  · intro name next last other hmakes hstep hlast hother
    exact hsound.ne_of_makes hmakes hstep hlast hother
  · intro run items rest hrun hdo hstack name
    obtain ⟨hmakes, hkeeps⟩ := hsound.makes_closure hrun hdo hstack
    refine ⟨hmakes, fun last hlast => ?_⟩
    have hlater := hkeeps.of_reaches hlast
    refine ⟨hlater.bound, fun place m hshows hnearest hless => ?_⟩
    have hfind : m.find? name = some (.external (.executeAll items)) :=
      hshows.find?_of_nearest hnearest hlater.bound
    exact Machine.dispatch_closure_of_room hfind hless

/-- A program in a root environment with a child, about to make a closure. -/
def atFirstClosure : Scene :=
  let program : List Instruction := [.value (.block [.number (.ofNat 5)]), .value (.symbol "do")]
  later 7 (begun ((Tree.ofMachine (.new {})).addChild 0) 0 (.program program))

/-- A closure that is made in the root environment runs in a child when it is dispatched there. -/
theorem closures_stable_dispatch_in_child :
    let tree := (Tree.ofMachine (.new {})).addChild 0
    let five : Value := .number (.ofNat 5)
    (tree.IsOrdered ∧ Reaches (start tree) atFirstClosure) ∧
      (∃ run, atFirstClosure.run? = some run ∧
        run.moment.activity = .procedure Builtin.makeClosure ∧
        run.moment.machine.stack = [.block [five]]) ∧
      (atFirstClosure.later 1).Makes "__do0" ∧
      (atFirstClosure.later 3).tree.cellAt? 0 "__do0" = some (.external (.executeAll [five])) ∧
      ∃ m, (atFirstClosure.later 3).tree.view? 1 = some m ∧
        (m.dispatch "__do0").fault? = none ∧
        (m.dispatch "__do0").machine.stack = [.block [five]] := by
  intro tree five
  have hordered : tree.IsOrdered := (Tree.isOrdered_ofMachine _).addChild 0
  have hscene : Reaches (start tree) atFirstClosure :=
    .head (step_begun rfl none _) (reaches_later 7 _)
  have hmoment : ∃ run, atFirstClosure.run? = some run ∧
      run.moment.activity = .procedure Builtin.makeClosure ∧
      run.moment.machine.stack = [.block [five]] ∧ run.moment.machine.nextName = "__do0" ∧
      run.place = 0 :=
    ⟨_, rfl, rfl, rfl, rfl, rfl⟩
  have hchild : ∃ m, (atFirstClosure.later 3).tree.view? 1 = some m ∧ m.stack = [] ∧
      (m.root.depth : Int) < m.root.limits.callLimit :=
    ⟨_, rfl, rfl, by decide⟩
  have hnearest : (atFirstClosure.later 3).tree.IsNearest 1 "__do0" 0 :=
    ⟨_, [1], [], rfl, rfl, List.forall_mem_singleton.mpr rfl⟩
  obtain ⟨run, hrun, hdo, hstack, hname, hplace⟩ := hmoment
  obtain ⟨m, hview, hempty, hless⟩ := hchild
  obtain ⟨-, -, -, hclosure⟩ := closures_stable hordered hscene
  obtain ⟨hmakes, hstable⟩ := hclosure run [five] [] hrun hdo hstack
  rw [hname] at hmakes hstable
  obtain ⟨hbound, hdispatch⟩ := hstable (atFirstClosure.later 3) .refl
  rw [hplace] at hbound hdispatch
  refine ⟨⟨hordered, hscene⟩, ⟨run, hrun, hdo, hstack⟩, hmakes, hbound, m, hview, ?_⟩
  rw [hdispatch 1 m (Tree.shows_of_view hview) hnearest hless]
  refine ⟨rfl, ?_⟩
  show [Value.block [five]] ++ m.stack = [.block [five]]
  rw [hempty]
  rfl

end Scene

end QuoteStack

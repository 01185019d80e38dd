import Mathlib.Data.List.Forall2
import QuoteStack.Proofs.Forest.Isolation
import QuoteStack.Proofs.Run.Effect

/-!
Runs in place, step by step. A scene is a tree of environments in which at most one run is in
progress. Whatever the run changes is put back at once, and a child that it opens gets a place of
its own, which it keeps when the run has left it. Between runs the host adds children, empties or
fills the journal, and begins any activity in any environment. The main statements are
`Scene.Sound.step` and `Scene.reaches_of_ends`.
-/

namespace QuoteStack

/-! ## Putting back -/

namespace Tree

variable {tree after : Tree} {place : Nat} {m n : Machine}

/-- The cell that the environment at a place itself binds a name to. -/
def cellAt? (tree : Tree) (place : Nat) (name : String) : Option Cell :=
  tree.environments[place]? >>= fun environment => environment.registers.find? name

theorem getElem?_update (tree : Tree) (place : Nat) (m : Machine) (other : Nat) :
    (tree.update place m).environments[other]? =
      if place = other then
        (tree.environments[other]?).map fun environment =>
          { environment with stack := m.stack, registers := m.scope.own }
      else tree.environments[other]? :=
  Array.getElem?_modify

/-- Changing one member is the same with functions that agree on it. -/
theorem modify_congr {environments : Array Environment} {environment : Environment}
    (h : environments[place]? = some environment) {f g : Environment → Environment}
    (hfg : f environment = g environment) :
    environments.modify place f = environments.modify place g := by
  apply Array.ext_getElem?
  intro i
  rw [Array.getElem?_modify, Array.getElem?_modify]
  by_cases hi : place = i
  · rw [if_pos hi, if_pos hi, ← hi, h, Option.map_some, Option.map_some, hfg]
  · rw [if_neg hi, if_neg hi]

namespace Shows

theorem cellAt?_eq (h : tree.Shows place m) (name : String) :
    tree.cellAt? place name = m.scope.own.find? name := by
  obtain ⟨environment, hplace, -, hregisters⟩ := h.environment
  rw [cellAt?, hplace, ← hregisters]
  rfl

/-- What is seen from a place depends on the environments up to there only, and on the root. -/
theorem of_same (h : tree.Shows place m) (hordered : tree.IsOrdered)
    (hsame : ∀ other ≤ place, after.environments[other]? = tree.environments[other]?) :
    after.Shows place { m with root := after.root } := by
  obtain ⟨environment, hplace, hstack, hregisters⟩ := h.environment
  have hafter := (hsame place (Nat.le_refl _)).trans hplace
  refine ⟨⟨environment, hafter, hstack, hregisters⟩, fun name => ?_, rfl⟩
  show after.findAt? place name = m.find? name
  rw [← h.found, findAt?_eq hafter, findAt?_eq hplace]
  congr 1
  apply findAmong?_congr
  intro ancestor hancestor
  have hlt := hordered place environment hplace ancestor hancestor
  rw [hsame ancestor (Nat.le_of_lt hlt)]

/-- A state with the same bindings, put back. -/
theorem update (h : tree.Shows place m) (hscope : n.scope = m.scope) :
    (tree.update place n).Shows place n := by
  obtain ⟨environment, hplace, -, hregisters⟩ := h.environment
  have heq : tree.update place n = (tree.restackAt place n.stack).onRoot fun _ => n.root := by
    have hmodify := modify_congr hplace
      (f := fun environment => { environment with stack := n.stack, registers := n.scope.own })
      (g := fun environment => { environment with stack := n.stack })
      (by rw [hscope, ← hregisters])
    exact congrArg (Tree.mk n.root) hmodify
  have hn : n = ⟨n.stack, m.scope, n.root⟩ := by rw [← hscope]
  rw [heq, hn]
  exact (h.restack n.stack).onRoot fun _ => n.root

/-- A state with one more binding, put back. -/
theorem update_set (h : tree.Shows place m) (hordered : tree.IsOrdered) (name : String)
    (cell : Cell) : (tree.update place (m.set name cell)).Shows place (m.set name cell) := by
  obtain ⟨environment, hplace, hstack, hregisters⟩ := h.environment
  have heq : tree.update place (m.set name cell) = tree.bindAt place name cell := by
    have hmodify := modify_congr hplace
      (f := fun environment =>
        { environment with stack := m.stack, registers := m.scope.own.set name cell })
      (g := fun environment =>
        { environment with registers := environment.registers.set name cell })
      (by rw [hstack, hregisters])
    refine (congrArg (Tree.mk m.root) hmodify).trans ?_
    rw [← h.root]
    rfl
  rw [heq]
  exact h.bind hordered name cell

/-- A child that is added and gets its bindings put in is one that is opened with them. -/
theorem addChild_update (h : tree.Shows place m) (bindings : List (String × Value)) :
    (tree.addChild place).update tree.environments.size (m.child bindings) =
      tree.openAt place bindings := by
  obtain ⟨environment, hplace, -, -⟩ := h.environment
  rw [openAt_eq hplace, addChild, hplace]
  show Tree.mk m.root (Array.modify _ _ _) = Tree.mk tree.root _
  rw [modify_push, h.root]
  rfl

end Shows

/-- An added child comes after the environments that are there. -/
theorem getElem?_addChild (tree : Tree) (place : Nat) {other : Nat}
    (h : other < tree.environments.size) :
    (tree.addChild place).environments[other]? = tree.environments[other]? := by
  rw [addChild]
  cases tree.environments[place]? with
  | none => rfl
  | some environment =>
    exact (Array.getElem?_push_lt h).trans (Array.getElem?_eq_getElem h).symm

theorem size_addChild (tree : Tree) (place : Nat) :
    tree.environments.size ≤ (tree.addChild place).environments.size := by
  rw [addChild]
  cases tree.environments[place]? with
  | none => exact Nat.le_refl _
  | some environment =>
    show _ ≤ (tree.environments.push _).size
    rw [Array.size_push]
    omega

namespace Extends

variable {before : Tree} {other : Nat}

/-- A change at the place, or at a place that has come later, keeps what is to be kept. -/
theorem update (h : before.Extends place tree)
    (hother : other = place ∨ before.environments.size ≤ other) (m : Machine) :
    before.Extends place (tree.update other m) where
  size_le := by
    show _ ≤ (tree.environments.modify other _).size
    rw [Array.size_modify]
    exact h.size_le
  others p hp hne := by
    rw [getElem?_update, if_neg (by omega)]
    exact h.others p hp hne
  ancestors := by
    rw [← h.ancestors, getElem?_update]
    split
    · rw [Option.map_map]
      rfl
    · rfl
  ordered hordered := (h.ordered hordered).update other m

theorem addChild (h : before.Extends place tree) (hplace : place < before.environments.size)
    (other : Nat) : before.Extends place (tree.addChild other) where
  size_le := Nat.le_trans h.size_le (size_addChild tree other)
  others p hp hne := by
    rw [getElem?_addChild tree other (Nat.lt_of_lt_of_le hp h.size_le)]
    exact h.others p hp hne
  ancestors := by
    rw [getElem?_addChild tree other (Nat.lt_of_lt_of_le hplace h.size_le)]
    exact h.ancestors
  ordered hordered := (h.ordered hordered).addChild other

end Extends

theorem lt_size_of_cellAt? {name : String} {cell : Cell} (h : tree.cellAt? place name = some cell) :
    place < tree.environments.size := by
  obtain ⟨environment, hplace, -⟩ := Option.bind_eq_some_iff.mp h
  exact (Array.getElem?_eq_some_iff.mp hplace).1

end Tree

/-! ## Scenes -/

/-- A run in progress, with the places of its environment and of those that wait for children. -/
structure Run where
  moment : Moment
  place : Nat
  /-- The places of the environments that wait, the innermost first. -/
  waiting : List Nat

/-- A tree of environments, and the run in progress. -/
structure Scene where
  tree : Tree
  run? : Option Run
  /-- The name that the last step has made up, if it has made up one. -/
  made? : Option String

namespace Run

/-- The tree and the run after a step. The state is put back at the place that it is for. -/
def after (tree : Tree) (run : Run) (t : Moment) : Tree × Run :=
  match run.moment.effect, run.waiting with
  | .enter _, waiting =>
    ((tree.addChild run.place).update tree.environments.size t.machine,
      ⟨t, tree.environments.size, run.place :: waiting⟩)
  | .leave, outer :: waiting => (tree.update outer t.machine, ⟨t, outer, waiting⟩)
  | _, waiting => (tree.update run.place t.machine, ⟨t, run.place, waiting⟩)

/-- The name that the next step makes up. -/
def makes? (run : Run) : Option String :=
  match run.moment.effect with
  | .mint => some run.moment.machine.nextName
  | _ => none

/-- The place of the environment in which the run began. -/
def base (run : Run) : Nat :=
  run.waiting.getLastD run.place

end Run

namespace Scene

/-- What can happen next: a run goes on or ends, or, if none is in progress, the host begins one,
adds a child, or puts another journal in place. -/
inductive Step : Scene → Scene → Prop where
  | begin {tree : Tree} {made? : Option String} {place : Nat} {m : Machine}
      (h : tree.view? place = some m) (activity : Activity) :
      Step ⟨tree, none, made?⟩ ⟨tree, some ⟨⟨activity, [], m⟩, place, []⟩, none⟩
  | go {tree : Tree} {run : Run} {made? : Option String} {t : Moment}
      (h : run.moment.next? = some t) :
      Step ⟨tree, some run, made?⟩ ⟨(run.after tree t).1, some (run.after tree t).2, run.makes?⟩
  | finish {tree : Tree} {run : Run} {made? : Option String} (h : run.moment.next? = none) :
      Step ⟨tree, some run, made?⟩ ⟨tree, none, none⟩
  | child (tree : Tree) (made? : Option String) (place : Nat) :
      Step ⟨tree, none, made?⟩ ⟨tree.addChild place, none, none⟩
  | note (tree : Tree) (made? : Option String) (journal : List Event) :
      Step ⟨tree, none, made?⟩ ⟨tree.onRoot fun root => { root with journal }, none, none⟩

/-- The second scene comes after the first, or is the same. -/
def Reaches : Scene → Scene → Prop :=
  Relation.ReflTransGen Step

/-- The scene after an activity has been begun at a place, if there is such a place. -/
def begun (tree : Tree) (place : Nat) (activity : Activity) : Scene :=
  ⟨tree, (tree.view? place).map fun m => ⟨⟨activity, [], m⟩, place, []⟩, none⟩

theorem step_begun {tree : Tree} {place : Nat} (h : (tree.view? place).isSome)
    (made? : Option String) (activity : Activity) :
    Step ⟨tree, none, made?⟩ (begun tree place activity) := by
  obtain ⟨m, hview⟩ := Option.isSome_iff_exists.mp h
  rw [begun, hview]
  exact .begin hview activity

/-- The scene after some steps of the run in progress, or at its end. -/
def later : Nat → Scene → Scene
  | 0, scene => scene
  | n + 1, ⟨tree, some run, made?⟩ =>
    match run.moment.next? with
    | some t => later n ⟨(run.after tree t).1, some (run.after tree t).2, run.makes?⟩
    | none => ⟨tree, some run, made?⟩
  | _ + 1, scene => scene

theorem reaches_later (n : Nat) (scene : Scene) : Reaches scene (scene.later n) := by
  induction n generalizing scene with
  | zero => exact .refl
  | succ n ih =>
    obtain ⟨tree, run?, made?⟩ := scene
    cases run? with
    | none => exact .refl
    | some run =>
      rw [later]
      cases hnext : run.moment.next? with
      | none => exact .refl
      | some t => exact .head (.go hnext) (ih _)

end Scene

/-! ## What a run sees is what the tree shows -/

/-- The environments of a run are those of the tree at its places. A child comes after the
environments around it. -/
structure Run.Fits (tree : Tree) (run : Run) : Prop where
  shows : tree.Shows run.place run.moment.machine
  around : List.Forall₂ (fun place (entry : List Value × Scope) =>
    tree.Shows place ⟨entry.1, entry.2, tree.root⟩) run.waiting run.moment.around
  falling : (run.place :: run.waiting).Pairwise (· > ·)

/-- The environments of a tree come after those around them, and the run in progress fits. -/
structure Scene.Sound (scene : Scene) : Prop where
  ordered : scene.tree.IsOrdered
  fits : ∀ run, scene.run? = some run → run.Fits scene.tree

namespace Run

variable {tree after : Tree} {run : Run} {t : Moment}

/-- What waits sees no change of the places after it, and of the root only the current one. -/
theorem shows_around (hordered : tree.IsOrdered) {places : List Nat}
    {entries : List (List Value × Scope)}
    (h : List.Forall₂ (fun place (entry : List Value × Scope) =>
      tree.Shows place ⟨entry.1, entry.2, tree.root⟩) places entries)
    (hsame : ∀ place ∈ places, ∀ other ≤ place,
      after.environments[other]? = tree.environments[other]?) :
    List.Forall₂ (fun place (entry : List Value × Scope) =>
      after.Shows place ⟨entry.1, entry.2, after.root⟩) places entries := by
  induction h with
  | nil => exact .nil
  | @cons place entry places entries hshows _ ih =>
    apply List.Forall₂.cons
    · exact hshows.of_same hordered (hsame place List.mem_cons_self)
    · exact ih fun other hother => hsame other (List.mem_cons_of_mem _ hother)

theorem fits_update (hordered : tree.IsOrdered) {place : Nat} {waiting : List Nat}
    (hshows : (tree.update place t.machine).Shows place t.machine)
    (haround : List.Forall₂ (fun place (entry : List Value × Scope) =>
      tree.Shows place ⟨entry.1, entry.2, tree.root⟩) waiting t.around)
    (hfalling : (place :: waiting).Pairwise (· > ·)) :
    Fits (tree.update place t.machine) ⟨t, place, waiting⟩ := by
  obtain ⟨hbefore, -⟩ := List.pairwise_cons.mp hfalling
  refine ⟨hshows, ?_, hfalling⟩
  apply shows_around hordered haround
  intro outer houter other hother
  have hlt := hbefore outer houter
  rw [Tree.getElem?_update, if_neg (by omega)]

theorem after_of_enter {bindings : List (String × Value)}
    (h : run.moment.effect = .enter bindings) :
    run.after tree t = ((tree.addChild run.place).update tree.environments.size t.machine,
      ⟨t, tree.environments.size, run.place :: run.waiting⟩) := by
  rw [Run.after, h]

theorem after_of_leave (h : run.moment.effect = .leave) {outer : Nat} {waiting : List Nat}
    (hwaiting : run.waiting = outer :: waiting) :
    run.after tree t = (tree.update outer t.machine, ⟨t, outer, waiting⟩) := by
  rw [Run.after, h, hwaiting]

theorem after_of_stay (henter : ∀ bindings, run.moment.effect ≠ .enter bindings)
    (hleave : run.moment.effect ≠ .leave) :
    run.after tree t = (tree.update run.place t.machine, ⟨t, run.place, run.waiting⟩) := by
  unfold Run.after
  cases h : run.moment.effect with
  | enter bindings => exact absurd h (henter bindings)
  | leave => exact absurd h hleave
  | _ => rfl

/-- A child that is opened comes after all environments, and so leaves those that wait as they are.
-/
theorem Fits.opened (h : run.Fits tree) (hordered : tree.IsOrdered)
    (bindings : List (String × Value)) (body : Procedure) (next : List Value → Procedure) :
    Fits (tree.openAt run.place bindings)
      ⟨⟨.procedure body,
          .parent run.moment.machine.stack run.moment.machine.scope next :: run.moment.frames,
          run.moment.machine.child bindings⟩,
        tree.environments.size, run.place :: run.waiting⟩ := by
  obtain ⟨environment, hplace, -⟩ := h.shows.environment
  have hlt := h.shows.lt_size
  have hbefore : ∀ place ∈ run.place :: run.waiting, place < tree.environments.size := by
    intro place hmem
    rcases List.mem_cons.mp hmem with rfl | hmem
    · exact hlt
    · have houter := (List.pairwise_cons.mp h.falling).1 place hmem
      omega
  have hsame : ∀ place ∈ run.place :: run.waiting, ∀ other ≤ place,
      (tree.openAt run.place bindings).environments[other]? = tree.environments[other]? := by
    intro place hmem other hother
    have hless := hbefore place hmem
    apply Tree.getElem?_openAt_of_lt hplace
    omega
  refine ⟨h.shows.opened hordered bindings, ?_, List.pairwise_cons.mpr ⟨hbefore, h.falling⟩⟩
  apply List.Forall₂.cons
  · exact h.shows.of_same hordered (hsame run.place List.mem_cons_self)
  · apply shows_around hordered h.around
    intro place hmem
    exact hsame place (List.mem_cons_of_mem _ hmem)

/-- After a step, a run fits the tree that it leaves. -/
theorem Fits.next (h : run.Fits tree) (hordered : tree.IsOrdered)
    (hnext : run.moment.next? = some t) :
    (run.after tree t).1.IsOrdered ∧ (run.after tree t).2.Fits (run.after tree t).1 := by
  have haffects := Moment.affects_of_next? hnext
  generalize heffect : run.moment.effect = e at haffects
  cases haffects with
  | nothing hscope _ haround =>
    rw [after_of_stay (by simp [heffect]) (by simp [heffect])]
    refine ⟨hordered.update _ _, fits_update hordered (h.shows.update hscope) ?_ h.falling⟩
    exact haround ▸ h.around
  | mint _ hafter =>
    rw [after_of_stay (by simp [heffect]) (by simp [heffect])]
    subst hafter
    exact ⟨hordered.update _ _, fits_update hordered (h.shows.update rfl) h.around h.falling⟩
  | @bind name cell _ _ hafter =>
    rw [after_of_stay (by simp [heffect]) (by simp [heffect])]
    subst hafter
    have hshows := h.shows.update_set hordered name cell
    exact ⟨hordered.update _ _, fits_update hordered hshows h.around h.falling⟩
  | @enter bindings body next _ hafter =>
    rw [after_of_enter heffect]
    subst hafter
    show Tree.IsOrdered (Tree.update _ _ (run.moment.machine.child bindings)) ∧
      Fits (Tree.update _ _ (run.moment.machine.child bindings)) _
    rw [h.shows.addChild_update]
    obtain ⟨environment, hplace, -⟩ := h.shows.environment
    exact ⟨hordered.openAt hplace bindings, h.opened hordered bindings body next⟩
  | @leave stack scope hbefore hafter =>
    have haround := h.around
    rw [hbefore] at haround
    obtain ⟨outer, waiting, houter, hrest, hwaiting⟩ := List.forall₂_cons_right_iff.mp haround
    rw [after_of_leave heffect hwaiting]
    have hscope : t.machine.scope = scope := by rw [hafter]
    -- the environment around goes on, the first of those that wait
    have hfalling := (List.pairwise_cons.mp h.falling).2
    rw [hwaiting] at hfalling
    exact ⟨hordered.update _ _, fits_update hordered (houter.update hscope) hrest hfalling⟩

theorem root_after (tree : Tree) (run : Run) (t : Moment) :
    (run.after tree t).1.root = t.machine.root := by
  unfold Run.after
  split <;> rfl

theorem moment_after (tree : Tree) (run : Run) (t : Moment) : (run.after tree t).2.moment = t := by
  unfold Run.after
  split <;> rfl

/-- Opening and leaving children, a run comes back to where it began. -/
theorem base_after (tree : Tree) (run : Run) (t : Moment) :
    (run.after tree t).2.base = run.base := by
  unfold Run.after
  split
  · show (run.place :: run.waiting).getLastD _ = _
    rw [List.getLastD_cons]
    rfl
  · next outer waiting _ hwaiting =>
    show waiting.getLastD outer = run.waiting.getLastD run.place
    rw [hwaiting, List.getLastD_cons]
  · rfl

/-- A run that is begun at a place of a tree changes nothing that is there but the environment at
that place: it is there, or in a child that has been opened on the way. -/
structure Stays (before : Tree) (place : Nat) (tree : Tree) (run : Run) : Prop where
  there : place < before.environments.size
  kept : before.Extends place tree
  places : ∀ p ∈ run.place :: run.waiting, p = place ∨ before.environments.size ≤ p

theorem Stays.next {before : Tree} {place : Nat} (h : run.Stays before place tree) (t : Moment) :
    (run.after tree t).2.Stays before place (run.after tree t).1 := by
  obtain ⟨hhere, hwaiting⟩ := List.forall_mem_cons.mp h.places
  have hsize := h.kept.size_le
  unfold Run.after
  split
  · -- the child gets a place after all that have been there
    have hchild := (h.kept.addChild h.there run.place).update (Or.inr hsize) t.machine
    exact ⟨h.there, hchild, List.forall_mem_cons.mpr ⟨Or.inr hsize, h.places⟩⟩
  · next outer waiting _ heq =>
    rw [heq] at hwaiting
    exact ⟨h.there, h.kept.update (hwaiting outer List.mem_cons_self) t.machine, hwaiting⟩
  · exact ⟨h.there, h.kept.update hhere t.machine, h.places⟩

end Run

namespace Scene

/-- Where no run is in progress, nothing has to fit. -/
theorem sound_idle {tree : Tree} (hordered : tree.IsOrdered) (made? : Option String) :
    Sound ⟨tree, none, made?⟩ :=
  ⟨hordered, fun _ hrun => absurd hrun.symm (Option.some_ne_none _)⟩

/-- No step breaks what makes a scene sound. -/
theorem Sound.step {scene next : Scene} (h : scene.Sound) (hstep : scene.Step next) :
    next.Sound := by
  cases hstep with
  | @begin tree made? place m hview activity =>
    refine ⟨h.ordered, fun run hrun => ?_⟩
    obtain rfl := Option.some.inj hrun
    exact ⟨Tree.shows_of_view hview, .nil, List.pairwise_singleton _ _⟩
  | @go tree run made? t hnext =>
    obtain ⟨hordered, hfits⟩ := (h.fits run rfl).next h.ordered hnext
    refine ⟨hordered, fun after hafter => ?_⟩
    obtain rfl := Option.some.inj hafter
    exact hfits
  | finish => exact sound_idle h.ordered none
  | child tree made? place => exact sound_idle (h.ordered.addChild place) none
  | note => exact sound_idle (h.ordered.onRoot _) none

theorem Sound.of_reaches {scene last : Scene} (h : scene.Sound) (hlast : Reaches scene last) :
    last.Sound := by
  induction hlast with
  | refl => exact h
  | tail _ hstep ih => exact ih.step hstep

/-- The scene before the host has done anything. -/
def start (tree : Tree) : Scene :=
  ⟨tree, none, none⟩

/-! ## Scenes and runs -/

/-- A scene goes through all moments of the run in progress. -/
theorem reaches_of_moments {before tree : Tree} {place : Nat} {run : Run} {t : Moment}
    (hstays : run.Stays before place tree) (made? : Option String)
    (h : Moment.Reaches run.moment t) :
    ∃ after last made?', Reaches ⟨tree, some run, made?⟩ ⟨after, some last, made?'⟩ ∧
      last.moment = t ∧ last.base = run.base ∧ last.Stays before place after := by
  induction h with
  | refl => exact ⟨tree, run, made?, .refl, rfl, rfl, hstays⟩
  | @tail b t _ hnext ih =>
    obtain ⟨after, last, made?', hreaches, rfl, hbase, hkept⟩ := ih
    refine ⟨(last.after after t).1, (last.after after t).2, last.makes?, ?_, ?_, ?_, ?_⟩
    · exact hreaches.tail (.go hnext)
    · exact Run.moment_after after last t
    · exact (Run.base_after after last t).trans hbase
    · exact hkept.next t

/-- An activity that is begun at a place and comes to an end leaves all environments that were there
as if what it ends with had been put back at the place. -/
theorem reaches_of_ends {tree : Tree} (hordered : tree.IsOrdered) {place : Nat} {m n : Machine}
    (hview : tree.view? place = some m) (made? : Option String) {activity : Activity}
    {fault? : Option Fault} (h : Moment.Reaches ⟨activity, [], m⟩ ⟨.finished fault?, [], n⟩) :
    ∃ after, Reaches ⟨tree, none, made?⟩ ⟨after, none, none⟩ ∧ after.root = n.root ∧
      ∀ other < tree.environments.size,
        after.environments[other]? = (tree.update place n).environments[other]? := by
  let run : Run := ⟨⟨activity, [], m⟩, place, []⟩
  have hbegin : Step ⟨tree, none, made?⟩ ⟨tree, some run, none⟩ := .begin hview activity
  have hstays : run.Stays tree place tree :=
    ⟨(Tree.shows_of_view hview).lt_size, .refl place tree,
      fun p hp => Or.inl (List.mem_singleton.mp hp)⟩
  obtain ⟨after, last, made?', hreaches, hlast, hbase, hkept⟩ := reaches_of_moments hstays none h
  have hfits : last.Fits after :=
    (((sound_idle hordered made?).step hbegin).of_reaches hreaches).fits last rfl
  -- at the end nothing waits, so the run is back at the place where it began
  have hwaiting : last.waiting = [] := by
    have haround := hfits.around
    rw [hlast] at haround
    exact List.forall₂_nil_right_iff.mp haround
  have hplace : last.place = place := by
    rw [Run.base, hwaiting] at hbase
    exact hbase
  have hend : last.moment.next? = none := by
    rw [hlast]
    rfl
  have hshows := hfits.shows
  rw [hlast, hplace] at hshows
  refine ⟨after, (Relation.ReflTransGen.head hbegin hreaches).tail (.finish hend), hshows.root, ?_⟩
  intro other hother
  exact hkept.kept.eq_update hshows hother

end Scene

end QuoteStack

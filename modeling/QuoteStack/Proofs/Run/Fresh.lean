import QuoteStack.Proofs.Run.Effect
import QuoteStack.Proofs.Run.Words

/-!
How new the names of closures are. A run of a program text in a new root environment binds a name
that it has not made up yet in one way only: by a binding of `let`, whose symbols can be any words.
So the name that is made up next is free, here and around, or it is that of such a binding, and
never that of a builtin procedure or of another closure. The main statement is
`Moment.makeClosure_binds_name_free_or_of_let`.
-/

namespace QuoteStack

open Machine (closureName closureName_injective)

/-! ## Moments with native procedures -/

/-- A procedure that is about to bind a native cell to a name that has been made up. -/
def Procedure.RegistersMinted (minted : Nat) (body : Procedure) : Prop :=
  ∃ k cell next, body = .register (closureName k) cell next ∧ k < minted ∧ cell.IsNative ∧
    next.IsModest

/-- What is done binds nothing but native cells to names that are made up. -/
def Activity.IsNative (minted : Nat) : Activity → Prop
  | .cell _ found => found.IsNative
  | .procedure body => body = Builtin.print ∨ body.IsModest ∨ body.RegistersMinted minted
  | _ => True

/-- What waits binds nothing but native cells to names that are made up. -/
def Frame.IsNative : Frame → Prop
  | .procedure next => next.IsModest
  | .parent _ scope next =>
    scope.Finds (fun _ => Cell.IsNative) ∧ ∀ values, (next values).IsModest
  | _ => True

/-- At the moment there are native cells and procedures only. -/
structure Moment.IsNative (s : Moment) : Prop where
  activity : s.activity.IsNative s.machine.root.minted
  frames : ∀ frame ∈ s.frames, frame.IsNative
  machine : s.machine.IsNative

namespace Moment

variable {frames : List Frame} {m : Machine}

theorem isNative_modest {body : Procedure} (h : body.IsModest) (minted : Nat) :
    (Activity.procedure body).IsNative minted :=
  Or.inr (Or.inl h)

theorem isNative_afterDispatch (hframes : ∀ frame ∈ frames, frame.IsNative) (hm : m.IsNative)
    (name : String) : (afterDispatch name frames m).IsNative := by
  unfold afterDispatch
  split
  · exact ⟨trivial, hframes, hm⟩
  · next cell hfind =>
    split
    · exact ⟨trivial, hframes, hm⟩
    · exact ⟨hm name cell hfind, List.forall_mem_cons.mpr ⟨trivial, hframes⟩, hm⟩

theorem isNative_afterCell (hframes : ∀ frame ∈ frames, frame.IsNative) (hm : m.IsNative)
    (name : String) {cell : Cell} (hcell : cell.IsNative) :
    (afterCell name cell frames m).IsNative := by
  cases cell with
  | program instructions => exact ⟨trivial, hframes, hm⟩
  | values items => exact ⟨trivial, hframes, hm⟩
  | foreign content => exact absurd hcell Cell.IsNative.not_foreign
  | external body =>
    rcases hcell.external with rfl | hbody
    · exact ⟨Or.inl rfl, hframes, hm⟩
    · exact ⟨isNative_modest hbody _, hframes, hm⟩

/-- One operation of a modest procedure. Making a name up leaves the binding of it to do. -/
theorem isNative_afterProcedure (hframes : ∀ frame ∈ frames, frame.IsNative) (hm : m.IsNative)
    {body : Procedure} (hbody : body.IsModest) : (afterProcedure body frames m).IsNative := by
  cases hbody with
  | done => exact ⟨trivial, hframes, hm⟩
  | fail fault => exact ⟨trivial, hframes, hm⟩
  | push h => exact ⟨isNative_modest h _, hframes, hm⟩
  | pop h =>
    obtain ⟨stack, scope, root⟩ := m
    cases stack with
    | nil => exact ⟨trivial, hframes, hm⟩
    | cons v rest => exact ⟨isNative_modest (h v) _, hframes, hm⟩
  | context h => exact ⟨isNative_modest (h _) _, hframes, hm⟩
  | popBindings h =>
    rw [afterProcedure]
    generalize Machine.spanBindings [] m.stack = split
    obtain ⟨bindings, rest⟩ := split
    cases rest with
    | nil => exact ⟨trivial, hframes, hm⟩
    | cons v rest => exact ⟨isNative_modest (h bindings v) _, hframes, hm⟩
  | registerNew hcell h =>
    have hregisters : Procedure.RegistersMinted (m.root.minted + 1) (.register m.nextName _ _) :=
      ⟨m.root.minted, _, _, rfl, Nat.lt_succ_self _, hcell m.nextName, h m.nextName⟩
    exact ⟨Or.inr (Or.inr hregisters), hframes, hm⟩
  | execute h => exact ⟨trivial, List.forall_mem_cons.mpr ⟨h, hframes⟩, hm⟩
  | @inChild bindings _ _ hbody h =>
    have hframe : Frame.IsNative (.parent m.stack m.scope _) := ⟨hm, h⟩
    exact ⟨isNative_modest hbody _, List.forall_mem_cons.mpr ⟨hframe, hframes⟩, hm.child bindings⟩
  | emit h => exact ⟨isNative_modest h _, hframes, hm⟩

theorem isNative_afterEnd? (hframes : ∀ frame ∈ frames, frame.IsNative) (hm : m.IsNative)
    {fault? : Option Fault} {t : Moment} (h : afterEnd? fault? frames m = some t) : t.IsNative := by
  cases frames with
  | nil => cases h
  | cons frame frames =>
    obtain ⟨hframe, hrest⟩ := List.forall_mem_cons.mp hframes
    cases frame with
    | dispatch wraps =>
      obtain rfl := Option.some.inj h
      exact ⟨trivial, hrest, hm⟩
    | program rest =>
      cases fault? <;> obtain rfl := Option.some.inj h
      · exact ⟨trivial, hrest, hm⟩
      · exact ⟨trivial, hrest, hm⟩
    | procedure next =>
      cases fault? <;> obtain rfl := Option.some.inj h
      · exact ⟨isNative_modest hframe _, hrest, hm⟩
      · exact ⟨trivial, hrest, hm⟩
    | parent stack scope next =>
      obtain ⟨hscope, hnext⟩ := hframe
      cases fault? <;> obtain rfl := Option.some.inj h
      · exact ⟨isNative_modest (hnext m.stack) _, hrest, hscope⟩
      · exact ⟨trivial, hrest, hscope⟩

theorem IsNative.next {s t : Moment} (hs : s.IsNative) (h : s.next? = some t) : t.IsNative := by
  obtain ⟨activity, frames, m⟩ := s
  obtain ⟨hactivity, hframes, hm⟩ := hs
  cases activity with
  | dispatch name => exact Option.some.inj h ▸ isNative_afterDispatch hframes hm name
  | cell name cell => exact Option.some.inj h ▸ isNative_afterCell hframes hm name hactivity
  | finished fault? => exact isNative_afterEnd? hframes hm h
  | value v =>
    obtain rfl := Option.some.inj h
    cases v with
    | symbol name => exact ⟨trivial, hframes, hm⟩
    | number n => exact ⟨trivial, hframes, hm⟩
    | block items => exact ⟨trivial, hframes, hm⟩
  | program instructions =>
    obtain rfl := Option.some.inj h
    rcases instructions with _ | ⟨v | kind, rest⟩
    · exact ⟨trivial, hframes, hm⟩
    · exact ⟨trivial, List.forall_mem_cons.mpr ⟨trivial, hframes⟩, hm⟩
    · exact ⟨trivial, hframes, hm⟩
  | procedure body =>
    obtain rfl := Option.some.inj h
    rcases hactivity with rfl | hbody | ⟨k, cell, next, rfl, -, hcell, hnext⟩
    · exact ⟨isNative_modest (.emit (.emit .done)) _, hframes, hm⟩
    · exact isNative_afterProcedure hframes hm hbody
    · exact ⟨isNative_modest hnext _, hframes, Scope.Finds.set hm hcell⟩

/-- Where there are native procedures only, a name that gets bound has been made up before. -/
theorem IsNative.eq_closureName {s : Moment} (hs : s.IsNative) {name : String} {cell : Cell}
    {next : Procedure} (hactivity : s.activity = .procedure (.register name cell next)) :
    ∃ k < s.machine.root.minted, name = closureName k := by
  have hbody := hs.activity
  rw [hactivity] at hbody
  rcases hbody with hprint | hmodest | ⟨k, _, _, heq, hk, -, -⟩
  · cases hprint
  · cases hmodest
  · exact ⟨k, hk, (Procedure.register.inj heq).1⟩

theorem not_isModest_register {name : String} {cell : Cell} {next : Procedure} :
    ¬ (Procedure.register name cell next).IsModest := by
  intro h
  cases h

/-- One operation of a modest procedure leaves a name to be bound only if it has made up the name.
-/
theorem makes_of_register_afterProcedure {body : Procedure} (hbody : body.IsModest)
    {name : String} {cell : Cell} {next : Procedure}
    (hafter : (afterProcedure body frames m).activity = .procedure (.register name cell next)) :
    effect ⟨.procedure body, frames, m⟩ = .mint ∧ name = m.nextName := by
  cases hbody with
  | registerNew hcell h =>
    injection hafter with hregister
    exact ⟨rfl, (Procedure.register.inj hregister).1.symm⟩
  | pop h =>
    obtain ⟨stack, scope, root⟩ := m
    cases stack with
    | nil => cases hafter
    | cons v rest => exact absurd (Activity.procedure.inj hafter ▸ h v) not_isModest_register
  | popBindings h =>
    rw [afterProcedure] at hafter
    generalize Machine.spanBindings [] m.stack = split at hafter
    obtain ⟨bindings, rest⟩ := split
    cases rest with
    | nil => cases hafter
    | cons v rest =>
      exact absurd (Activity.procedure.inj hafter ▸ h bindings v) not_isModest_register
  | push h => exact absurd (Activity.procedure.inj hafter ▸ h) not_isModest_register
  | context h => exact absurd (Activity.procedure.inj hafter ▸ h _) not_isModest_register
  | inChild hbody h => exact absurd (Activity.procedure.inj hafter ▸ hbody) not_isModest_register
  | emit h => exact absurd (Activity.procedure.inj hafter ▸ h) not_isModest_register
  | done => cases hafter
  | fail fault => cases hafter
  | execute h => cases hafter

/-- Where there are native procedures only, a name is bound only right after it has been made up. -/
theorem IsNative.makes_of_register {s t : Moment} (hs : s.IsNative) (h : s.next? = some t)
    {name : String} {cell : Cell} {next : Procedure}
    (ht : t.activity = .procedure (.register name cell next)) :
    s.effect = .mint ∧ name = s.machine.nextName := by
  obtain ⟨activity, frames, m⟩ := s
  obtain ⟨hactivity, hframes, hm⟩ := hs
  cases activity with
  | procedure body =>
    obtain rfl := Option.some.inj h
    rcases hactivity with rfl | hbody | ⟨_, _, _, rfl, -, -, hnext⟩
    · cases ht
    · exact makes_of_register_afterProcedure hbody ht
    · exact absurd (Activity.procedure.inj ht ▸ hnext) not_isModest_register
  | cell name found =>
    obtain rfl := Option.some.inj h
    cases found with
    | external body =>
      rcases Cell.IsNative.external hactivity with rfl | hbody
      · cases ht
      · exact absurd (Activity.procedure.inj ht ▸ hbody) not_isModest_register
    | _ => cases ht
  | finished fault? =>
    -- what has waited goes on as a modest procedure
    rcases frames with _ | ⟨rest | rest | ⟨stack, scope, rest⟩ | wraps, frames⟩
    · cases h
    · cases fault? <;> obtain rfl := Option.some.inj h <;> cases ht
    · have hrest : rest.IsModest := hframes _ List.mem_cons_self
      cases fault? <;> obtain rfl := Option.some.inj h
      · exact absurd (Activity.procedure.inj ht ▸ hrest) not_isModest_register
      · cases ht
    · have hrest := (hframes _ List.mem_cons_self).2 m.stack
      cases fault? <;> obtain rfl := Option.some.inj h
      · exact absurd (Activity.procedure.inj ht ▸ hrest) not_isModest_register
      · cases ht
    · obtain rfl := Option.some.inj h
      cases ht
  | dispatch name =>
    obtain rfl := Option.some.inj h
    replace ht : (afterDispatch name frames m).activity = _ := ht
    unfold afterDispatch at ht
    split at ht
    · cases ht
    · split at ht <;> cases ht
  | value v =>
    obtain rfl := Option.some.inj h
    cases v <;> cases ht
  | program instructions =>
    obtain rfl := Option.some.inj h
    rcases instructions with _ | ⟨_ | _, rest⟩ <;> cases ht

/-! ## Names that are not made up yet -/

/-- On the way from the start a child has been opened that has the name bound to the cell. -/
def LetBound (start s : Moment) (name : String) (cell : Cell) : Prop :=
  ∃ u bindings body next v, Reaches start u ∧ Reaches u s ∧
    u.activity = .procedure (.inChild bindings body next) ∧ bindings.lookup name = some v ∧
    cell = .values [v]

/-- Names of closures that are not made up yet are bound by children on the way only. -/
def OnlyLets (start s : Moment) (scope : Scope) : Prop :=
  ∀ k cell, s.machine.root.minted ≤ k → scope.find? (closureName k) = some cell →
    LetBound start s (closureName k) cell

theorem OnlyLets.next {start s t : Moment} {scope : Scope} (hs : OnlyLets start s scope)
    (h : s.next? = some t) : OnlyLets start t scope := by
  intro k cell hk hfind
  have hle := minted_le_of_next? h
  obtain ⟨u, bindings, body, next, v, hstart, hu, hlet⟩ := hs k cell (by omega) hfind
  exact ⟨u, bindings, body, next, v, hstart, hu.trans (.step h (.refl t)), hlet⟩

/-- What a run keeps: in the environment of the moment and in those around it, names of closures
that are not made up yet are bound by children on the way only. -/
structure KeepsNew (start s : Moment) : Prop where
  reaches : Reaches start s
  native : s.IsNative
  here : OnlyLets start s s.machine.scope
  around : ∀ entry ∈ s.around, OnlyLets start s entry.2

theorem KeepsNew.next {start s t : Moment} (hs : KeepsNew start s) (h : s.next? = some t) :
    KeepsNew start t := by
  have hreaches : Reaches start t := hs.reaches.trans (.step h (.refl t))
  have hnative := hs.native.next h
  have hhere := hs.here.next h
  have haround : ∀ entry ∈ s.around, OnlyLets start t entry.2 :=
    fun entry hentry => (hs.around entry hentry).next h
  have haffects := affects_of_next? h
  generalize s.effect = e at haffects
  cases haffects with
  | nothing hscope _ hkept =>
    refine ⟨hreaches, hnative, hscope ▸ hhere, ?_⟩
    rw [hkept]
    exact haround
  | mint _ hafter =>
    subst hafter
    exact ⟨hreaches, hnative, hhere, haround⟩
  | @bind name cell next hactivity hafter =>
    subst hafter
    refine ⟨hreaches, hnative, fun k found hk hfind => ?_, haround⟩
    -- the name that is bound has a smaller number
    obtain ⟨j, hj, rfl⟩ := hs.native.eq_closureName hactivity
    have hne : closureName k ≠ closureName j := by
      intro heq
      have hkj := closureName_injective heq
      replace hk : s.machine.root.minted ≤ k := hk
      omega
    replace hfind : (s.machine.scope.set (closureName j) cell).find? (closureName k) = some found :=
      hfind
    rw [Scope.find?_set, if_neg hne] at hfind
    exact hhere k found hk hfind
  | @enter bindings body next hactivity hafter =>
    have hwaiting : t.around = (s.machine.stack, s.machine.scope) :: s.around := by
      rw [hafter]
      rfl
    refine ⟨hreaches, hnative, fun k found hk hfind => ?_, ?_⟩
    · have hmachine : t.machine = s.machine.child bindings := by rw [hafter]
      replace hfind : t.machine.find? (closureName k) = some found := hfind
      rw [hmachine, Machine.find?_child] at hfind
      cases hlookup : bindings.lookup (closureName k) with
      | some v =>
        rw [hlookup] at hfind
        have hcell : found = .values [v] := (Option.some.inj hfind).symm
        exact ⟨s, bindings, body, next, v, hs.reaches, .step h (.refl t), hactivity, hlookup, hcell⟩
      | none =>
        rw [hlookup] at hfind
        exact hhere k found hk hfind
    · rw [hwaiting]
      exact List.forall_mem_cons.mpr ⟨hhere, haround⟩
  | @leave stack scope hkept hafter =>
    rw [hkept] at haround
    obtain ⟨houter, hrest⟩ := List.forall_mem_cons.mp haround
    refine ⟨hreaches, hnative, ?_, hrest⟩
    rw [hafter]
    exact houter

theorem KeepsNew.of_reaches {start s : Moment} (hstart : KeepsNew start start)
    (h : Reaches start s) : KeepsNew start s := by
  induction h with
  | refl => exact hstart
  | tail _ hnext ih => exact ih.next hnext

/-- A new root environment binds no name of a closure. -/
theorem find?_closureName_new (limits : Limits) (k : Nat) :
    (Machine.new limits).find? (closureName k) = none := by
  have hbinds : (Machine.new limits).scope.Binds fun name cell => (name, cell) ∈ Builtin.cells :=
    Machine.binds_ofCells limits fun _ _ hmem => hmem
  cases hfind : (Machine.new limits).find? (closureName k) with
  | none => rfl
  | some cell =>
    -- the names of builtin procedures start with letters
    have hnames : ∀ entry ∈ Builtin.cells, entry.1.toList.head? ≠ some '_' := by decide
    refine absurd ?_ (hnames _ (hbinds.found _ _ hfind))
    rw [closureName, String.toList_append]
    rfl

theorem keepsNew_start (reading : Program.Reading Value) (limits : Limits) :
    KeepsNew (reading.start limits) (reading.start limits) := by
  have hscope : (reading.start limits).machine.scope = (Machine.new limits).scope := by
    unfold Program.Reading.start Machine.warn
    cases reading.warning? <;> rfl
  refine ⟨.refl _, ⟨trivial, fun frame hframe => absurd hframe List.not_mem_nil, ?_⟩, ?_, ?_⟩
  · show (reading.start limits).machine.scope.Finds _
    rw [hscope]
    exact Machine.isNative_new limits
  · intro k cell _ hfind
    rw [hscope] at hfind
    exact absurd ((find?_closureName_new limits k).symm.trans hfind) (Option.some_ne_none _).symm
  · exact fun entry hentry => absurd hentry List.not_mem_nil

end Moment

/-! ## Closures of programs -/

/-- A program that binds the name of the second closure and makes two. -/
def Program.bindingSecondName : Program.Reading Value :=
  { program :=
      [.block [.block [.number (.ofNat 7)], .symbol "do", .symbol "let", .symbol "__do1"],
        .symbol "do", .block [.number (.ofNat 5), .symbol "__do1"], .symbol "let"]
    rest := []
    warning? := none }

theorem Program.ofSource_bindingSecondName :
    ofSource "let \x7b__do1 5\x7d do \x7b__do1 let do \x7b7\x7d\x7d" = .ok bindingSecondName :=
  ofSource_of_text (by decide) (by decide)

namespace Moment

/-- The moment at which the second closure is about to be made. -/
def atSecondClosure : Moment :=
  (Program.bindingSecondName.start {}).later 35

/-- Whenever a run of a program text is about to make a closure of a block, the block gets bound to
the next name in the environment of the moment. This name is free, there and in all environments
around, or what it is found bound to is a value that a binding of `let` has given it on the way. -/
theorem makeClosure_binds_name_free_or_of_let (reading : Program.Reading Value) (limits : Limits)
    {s : Moment} (hs : Reaches (reading.start limits) s)
    (hdo : s.activity = .procedure Builtin.makeClosure) {items rest : List Value}
    (hstack : s.machine.stack = .block items :: rest) :
    (∃ t, Reaches s t ∧ t.machine = { s.machine with stack := rest }.countName.set
        s.machine.nextName (.external (.executeAll items))) ∧
      (s.machine.find? s.machine.nextName = none ∨
        ∃ u bindings body next v, Reaches (reading.start limits) u ∧ Reaches u s ∧
          u.activity = .procedure (.inChild bindings body next) ∧
          bindings.lookup s.machine.nextName = some v ∧
          s.machine.find? s.machine.nextName = some (.values [v])) := by
  have hkeeps := (keepsNew_start reading limits).of_reaches hs
  refine ⟨?_, ?_⟩
  · obtain ⟨activity, frames, stack, scope, root⟩ := s
    obtain rfl : activity = .procedure Builtin.makeClosure := hdo
    obtain rfl : stack = .block items :: rest := hstack
    exact ⟨_, .step rfl (.step rfl (.step rfl (.refl _))), rfl⟩
  · cases hfind : s.machine.find? s.machine.nextName with
    | none => exact Or.inl rfl
    | some cell =>
      obtain ⟨u, bindings, body, next, v, hstart, hu, hlet, hlookup, rfl⟩ :=
        hkeeps.here s.machine.root.minted cell (Nat.le_refl _) hfind
      exact Or.inr ⟨u, bindings, body, next, v, hstart, hu, hlet, hlookup, rfl⟩

theorem makeClosure_binds_name_free_or_of_let_bound :
    (Reaches (Program.bindingSecondName.start {}) atSecondClosure ∧
      atSecondClosure.activity = .procedure Builtin.makeClosure ∧
      atSecondClosure.machine.stack = [.block [.number (.ofNat 7)]]) ∧
    ∃ u bindings body next v, Reaches (Program.bindingSecondName.start {}) u ∧
      Reaches u atSecondClosure ∧ u.activity = .procedure (.inChild bindings body next) ∧
      bindings.lookup atSecondClosure.machine.nextName = some v := by
  have hs : Reaches (Program.bindingSecondName.start {}) atSecondClosure := reaches_later 35 _
  have hdo : atSecondClosure.activity = .procedure Builtin.makeClosure := rfl
  have hstack : atSecondClosure.machine.stack = [.block [.number (.ofNat 7)]] := rfl
  refine ⟨⟨hs, hdo, hstack⟩, ?_⟩
  obtain ⟨-, hfree | ⟨u, bindings, body, next, v, hstart, hu, hlet, hlookup, -⟩⟩ :=
    makeClosure_binds_name_free_or_of_let Program.bindingSecondName {} hs hdo hstack
  · have hbound : (atSecondClosure.machine.find? atSecondClosure.machine.nextName).isSome := rfl
    rw [hfree] at hbound
    cases hbound
  · exact ⟨u, bindings, body, next, v, hstart, hu, hlet, hlookup⟩

/-- The name of a closure is not free where the program has bound it, and what the program has bound
it to is lost: the name stands for 5 before the closure is made, and the closure of 7 takes its
place. -/
theorem exists_makeClosure_of_bound_name :
    let source := "let \x7b__do1 5\x7d do \x7b__do1 let do \x7b7\x7d\x7d"
    (∃ reading s, Program.ofSource source = .ok reading ∧ Reaches (reading.start {}) s ∧
      s.activity = .procedure Builtin.makeClosure ∧
      s.machine.find? s.machine.nextName = some (.values [.number (.ofNat 5)])) ∧
    (runProgram {} source).machine.values =
      [.block [.number (.ofNat 7)], .block [.number (.ofNat 7)]] := by
  refine ⟨⟨Program.bindingSecondName, atSecondClosure, Program.ofSource_bindingSecondName,
    reaches_later 35 _, rfl, rfl⟩, ?_⟩
  unfold runProgram Machine.evaluate
  rw [Program.ofSource_bindingSecondName]
  rfl

end Moment

end QuoteStack

import QuoteStack.Proofs.Run.Builtin
import QuoteStack.Proofs.Run.Cells

/-!
Native cells: stored programs and blocks, the builtin procedures, and the closures that programs
make of blocks. Where a run meets no other cells it binds nothing but closures under new names, it
leaves the count of names and the journal at least where they were, and it keeps the cells native.
The main statement is `advances_execute`.
-/

namespace QuoteStack

/-- A cell that no host has to provide. -/
inductive Cell.IsNative : Cell → Prop where
  | program (instructions : List Instruction) : IsNative (.program instructions)
  | values (items : List Value) : IsNative (.values items)
  | builtin {name : String} {cell : Cell} (h : (name, cell) ∈ Builtin.cells) : IsNative cell
  | closure (items : List Value) : IsNative (.external (.executeAll items))

/-- A procedure that knows of the stack only what it takes off it, and that binds nothing but a
native cell to a name that it has just made up. -/
inductive Procedure.IsModest : Procedure → Prop where
  | done : IsModest .done
  | fail (fault : Fault) : IsModest (.fail fault)
  | push {v : Value} {next : Procedure} (h : IsModest next) : IsModest (.push v next)
  | pop {next : Value → Procedure} (h : ∀ v, IsModest (next v)) : IsModest (.pop next)
  | context {next : Decimal.Context → Procedure} (h : ∀ context, IsModest (next context)) :
      IsModest (.context next)
  | popBindings {next : List (String × Value) → Value → Procedure}
      (h : ∀ bindings v, IsModest (next bindings v)) : IsModest (.popBindings next)
  | registerNew {cell : String → Cell} {next : String → Procedure}
      (hcell : ∀ name, (cell name).IsNative) (h : ∀ name, IsModest (next name)) :
      IsModest (.mint fun name => .register name (cell name) (next name))
  | execute {v : Value} {next : Procedure} (h : IsModest next) : IsModest (.execute v next)
  | inChild {bindings : List (String × Value)} {body : Procedure}
      {next : List Value → Procedure} (hbody : IsModest body)
      (h : ∀ values, IsModest (next values)) : IsModest (.inChild bindings body next)
  | emit {event : Event} {next : Procedure} (h : IsModest next) : IsModest (.emit event next)

/-- The operations of builtin procedures pass modesty on; printing looks at the stack, and is not
modest. -/
theorem isArithmetic_isModest : ({ procedure := Procedure.IsModest } : Criterion).IsArithmetic where
  symbol _ := trivial
  items _ _ _ := trivial
  done := .done
  fail _ := .fail _
  push _ := .push
  pop h := .pop fun v => h v trivial
  popBindings h := .popBindings fun bindings v => h bindings v (fun _ _ _ => trivial) trivial
  registerNew _ _ h := .registerNew (fun _ => .closure _) fun name => h name trivial
  execute _ := .execute
  inChild _ hbody h := .inChild hbody fun values => h values fun _ _ => trivial
  emit := .emit
  number _ := trivial
  name _ := trivial
  block _ := trivial
  join _ _ := trivial
  operators _ _ := trivial
  context h := .context fun context => h context trivial
  arithmetic _ _ := .fail _

namespace Cell.IsNative

theorem external {body : Procedure} (h : (Cell.external body).IsNative) :
    body = Builtin.print ∨ body.IsModest := by
  cases h with
  | builtin h => exact isArithmetic_isModest.of_mem_cells h
  | closure items => exact Or.inr (isArithmetic_isModest.executeAll fun _ _ => trivial)

theorem not_foreign {content : String} : ¬ (Cell.foreign content).IsNative := by
  intro h
  cases h with
  | builtin h =>
    obtain ⟨body, heq, -⟩ := Builtin.exists_body_of_mem_cells h
    cases heq

end Cell.IsNative

/-! ## Environments with native cells -/

namespace Machine

/-- A program finds native cells only. -/
def IsNative (m : Machine) : Prop :=
  m.scope.Finds fun _ => Cell.IsNative

theorem IsNative.child {m : Machine} (h : m.IsNative) (bindings : List (String × Value)) :
    (m.child bindings).IsNative :=
  finds_child h fun _ v _ => .values [v]

/-- A new root environment has native cells only. -/
theorem binds_new (limits : Limits) : (Machine.new limits).scope.Binds fun _ => Cell.IsNative :=
  binds_ofCells limits fun _ _ hmem => .builtin hmem

theorem isNative_new (limits : Limits) : (Machine.new limits).IsNative :=
  (binds_new limits).found

/-! ## Closures -/

/-- The name of the closure with a number. -/
def closureName (n : Nat) : String :=
  "__do" ++ toString n

/-- The number of a closure is read back from its name. -/
theorem closureName_injective {i j : Nat} (h : closureName i = closureName j) : i = j := by
  have hchars := congrArg String.toList h
  rw [closureName, closureName, String.toList_append, String.toList_append] at hchars
  have hdigits := congrArg (fun digits => Nat.ofDigitChars 10 digits 0)
    (List.append_cancel_left hchars)
  simpa [Nat.toString_eq_ofList_toDigits] using hdigits

/-- A closure executes the values of its block. -/
theorem run_executeAll (D : Dispatch) (items : List Value) (m : Machine) :
    (Procedure.executeAll items).run D m = executeEach D (items.map .value) m := by
  induction items generalizing m with
  | nil => rfl
  | cons v rest ih =>
    rw [Procedure.executeAll, Procedure.run, List.map_cons, executeEach]
    simp only [Instruction.execute, ih]

/-- Below the limit, dispatching the name of a closure executes its block here, one dispatch deeper,
and wraps the fault. -/
theorem dispatch_closure_of_room {name : String} {m : Machine} {items : List Value}
    (hfind : m.find? name = some (.external (.executeAll items)))
    (hless : (m.root.depth : Int) < m.root.limits.callLimit) :
    m.dispatch name =
      (((m.enter.emit (.called name)).execute (items.map .value)).mapMachine leave).wrap := by
  rw [dispatch_of_room hfind hless, Cell.invoke, run_executeAll, execute_eq]
  rfl

/-! ## What a run may change -/

/-- A name that is made up between one state and another. -/
def IsMinted (m n : Machine) (name : String) : Prop :=
  ∃ k, m.root.minted ≤ k ∧ k < n.root.minted ∧ name = closureName k

/-- What running native cells may change: the stack, the binding of names that are made up on the
way, the count of these names, and the journal, which only grows. -/
structure Advances (m n : Machine) : Prop where
  native : m.IsNative → n.IsNative
  counters : n.counters = m.counters
  minted_le : m.root.minted ≤ n.root.minted
  journal : m.root.journal <:+ n.root.journal
  own : ∀ name, ¬ IsMinted m n name → n.scope.own.find? name = m.scope.own.find? name

namespace Advances

variable {m n : Machine}

theorem refl (m : Machine) : Advances m m :=
  ⟨id, rfl, Nat.le_refl _, List.suffix_refl _, fun _ _ => rfl⟩

theorem trans {l : Machine} (h : Advances l m) (h' : Advances m n) : Advances l n where
  native hl := h'.native (h.native hl)
  counters := h'.counters.trans h.counters
  minted_le := Nat.le_trans h.minted_le h'.minted_le
  journal := h.journal.trans h'.journal
  own name hname := by
    have hfirst : ¬ IsMinted l m name := fun ⟨k, hlow, hhigh, heq⟩ =>
      hname ⟨k, hlow, Nat.lt_of_lt_of_le hhigh h'.minted_le, heq⟩
    have hsecond : ¬ IsMinted m n name := fun ⟨k, hlow, hhigh, heq⟩ =>
      hname ⟨k, Nat.le_trans h.minted_le hlow, hhigh, heq⟩
    exact (h'.own name hsecond).trans (h.own name hfirst)

theorem restack (m : Machine) (stack : List Value) : Advances m { m with stack } :=
  ⟨id, rfl, Nat.le_refl _, List.suffix_refl _, fun _ _ => rfl⟩

theorem push (m : Machine) (v : Value) : Advances m (m.push v) :=
  restack m (v :: m.stack)

theorem emit (m : Machine) (event : Event) : Advances m (m.emit event) :=
  ⟨id, rfl, Nat.le_refl _, List.suffix_cons _ _, fun _ _ => rfl⟩

/-- A cell is bound to a new name. -/
theorem registerNew (m : Machine) {cell : Cell} (hcell : cell.IsNative) :
    Advances m (m.countName.set m.nextName cell) where
  native hm := Scope.Finds.set hm hcell
  counters := rfl
  minted_le := Nat.le_succ _
  journal := List.suffix_refl _
  own name hname := by
    have hne : name ≠ m.nextName := fun heq =>
      hname ⟨m.root.minted, Nat.le_refl _, Nat.lt_succ_self _, heq⟩
    show (m.scope.own.set m.nextName cell).find? name = _
    rw [Registers.find?_set, if_neg hne]

/-- Of what a child does, only the change of the root remains. -/
theorem back {bindings : List (String × Value)} {c : Machine}
    (h : Advances (m.child bindings) c) : Advances m { m with root := c.root } :=
  ⟨id, h.counters, h.minted_le, h.journal, fun _ _ => rfl⟩

/-- A dispatch that is left counts no more. -/
theorem leave (h : Advances m.enter n) : Advances m n.leave :=
  ⟨h.native, counters_leave_of_enter h.counters, h.minted_le, h.journal, h.own⟩

end Advances

/-! ## Runs of native cells -/

/-- Dispatches in environments with native cells do no more than such runs may. -/
def DispatchesAdvance (D : Dispatch) : Prop :=
  ∀ name (m : Machine), m.IsNative → Advances m (D name m).machine

section
variable {D : Dispatch} {m : Machine}

theorem advances_andThen {o : Outcome} {next : Machine → Outcome} (hm : m.IsNative)
    (h : Advances m o.machine)
    (hnext : ∀ n : Machine, n.IsNative → Advances n (next n).machine) :
    Advances m (o.andThen next).machine := by
  obtain ⟨fault?, n⟩ := o
  cases fault? with
  | none => exact h.trans (hnext n (h.native hm))
  | some fault => exact h

theorem advances_value (hD : DispatchesAdvance D) (v : Value) (hm : m.IsNative) :
    Advances m (v.execute D m).machine := by
  cases v with
  | number n => exact .push m _
  | block items => exact .push m _
  | symbol name => exact hD name m hm

theorem advances_each (hD : DispatchesAdvance D) (program : List Instruction) (hm : m.IsNative) :
    Advances m (executeEach D program m).machine := by
  induction program generalizing m with
  | nil => exact .refl m
  | cons instruction rest ih =>
    refine advances_andThen hm ?_ fun n hn => ih hn
    cases instruction with
    | value v => exact advances_value hD v hm
    | foreign kind => exact .refl m

theorem advances_run (hD : DispatchesAdvance D) {body : Procedure} (hbody : body.IsModest)
    (hm : m.IsNative) : Advances m (body.run D m).machine := by
  induction hbody generalizing m with
  | done => exact .refl m
  | fail fault => exact .refl m
  | @push v _ _ ih =>
    have hpush := Advances.push m v
    exact hpush.trans (ih (hpush.native hm))
  | pop _ ih =>
    obtain ⟨stack, scope, root⟩ := m
    cases stack with
    | nil => exact .refl _
    | cons v rest => exact (Advances.restack _ rest).trans (ih v hm)
  | context _ ih => exact ih _ hm
  | popBindings _ ih =>
    simp only [Procedure.run]
    generalize spanBindings [] m.stack = split
    obtain ⟨bindings, rest⟩ := split
    cases rest with
    | nil => exact .restack m []
    | cons v rest => exact (Advances.restack m rest).trans (ih bindings v hm)
  | @registerNew cell _ hcell _ ih =>
    -- only here is a name bound, and it is one that has just been made up
    have hnew := Advances.registerNew m (hcell m.nextName)
    exact hnew.trans (ih m.nextName (hnew.native hm))
  | execute _ ih => exact advances_andThen hm (advances_value hD _ hm) fun n hn => ih hn
  | @inChild bindings body _ _ _ ihBody ihNext =>
    rw [Procedure.run_inChild]
    exact advances_andThen hm (ihBody (hm.child bindings)).back fun n hn => ihNext _ hn
  | @emit event _ _ ih =>
    have hemit := Advances.emit m event
    exact hemit.trans (ih (hemit.native hm))

theorem advances_print (D : Dispatch) (m : Machine) :
    Advances m (Builtin.print.run D m).machine :=
  (Advances.emit m _).trans (.emit _ _)

theorem advances_invoke (hD : DispatchesAdvance D) (name : String) {cell : Cell}
    (hcell : cell.IsNative) (hm : m.IsNative) : Advances m (cell.invoke D name m).machine := by
  cases cell with
  | program instructions =>
    have hemit := Advances.emit m (.entered name)
    exact hemit.trans (advances_each hD instructions (hemit.native hm))
  | values items => exact .push m _
  | external body =>
    have hemit := Advances.emit m (.called name)
    rcases hcell.external with rfl | hbody
    · exact hemit.trans (advances_print D _)
    · exact hemit.trans (advances_run hD hbody (hemit.native hm))
  | foreign content => exact absurd hcell Cell.IsNative.not_foreign

end

theorem advances_dispatchWithin (room : Nat) : DispatchesAdvance (dispatchWithin room) := by
  induction room with
  | zero =>
    intro name m hm
    rw [dispatchWithin]
    cases m.find? name <;> exact .refl m
  | succ room ih =>
    intro name m hm
    cases hfind : m.find? name with
    | none =>
      simp only [dispatchWithin, hfind]
      exact .refl m
    | some cell =>
      rw [dispatchWithin_succ room hfind]
      exact (advances_invoke (m := m.enter) ih name (hm name cell hfind) hm).leave

/-- A program that meets native cells only binds nothing in its environment but new names, and
leaves the count of names and the journal at least where they were. -/
theorem advances_execute {m : Machine} (hm : m.IsNative) (program : List Instruction) :
    Advances m (m.execute program).machine :=
  advances_each (advances_dispatchWithin m.room) program hm

end Machine

end QuoteStack

import QuoteStack.Machine.Run

/-!
Two runs side by side. States that agree in all that procedures can ask for go through the same
operations, so a relation between states that every single operation keeps is kept by whole runs,
whatever dispatching a name does, as long as that keeps it too. Faults of the first run can be given
up: where it ends with one of them, nothing is said about the second run.
-/

namespace QuoteStack

/-- A relation between states that agree in what procedures can ask for, kept by every operation. -/
structure Lockstep (R : Machine → Machine → Prop) : Prop where
  stack_eq {m n : Machine} : R m n → m.stack = n.stack
  depth_eq {m n : Machine} : R m n → m.root.depth = n.root.depth
  context_eq {m n : Machine} : R m n → m.root.limits.toContext = n.root.limits.toContext
  nextName_eq {m n : Machine} : R m n → m.nextName = n.nextName
  restack {m n : Machine} (stack : List Value) : R m n → R { m with stack } { n with stack }
  set {m n : Machine} (name : String) (cell : Cell) : R m n → R (m.set name cell) (n.set name cell)
  emit {m n : Machine} (event : Event) : R m n → R (m.emit event) (n.emit event)
  countName {m n : Machine} : R m n → R m.countName n.countName
  child {m n : Machine} (bindings : List (String × Value)) :
    R m n → R (m.child bindings) (n.child bindings)
  /-- Leaving a child, only the root stays as the child has left it. -/
  back {m n c d : Machine} : R m n → R c d → R { m with root := c.root } { n with root := d.root }

/-- The second outcome ends as the first does, unless that is with a fault that is given up. -/
def Outcome.Matches (R : Machine → Machine → Prop) (lost : Fault → Prop) (o o' : Outcome) : Prop :=
  (∃ fault, o.fault? = some fault ∧ lost fault) ∨ (o.fault? = o'.fault? ∧ R o.machine o'.machine)

/-- Running a procedure in a child, only the root stays as the child has left it, whether that has
failed or not. -/
theorem Procedure.run_inChild (D : Dispatch) (bindings : List (String × Value)) (body : Procedure)
    (next : List Value → Procedure) (m : Machine) :
    (Procedure.inChild bindings body next).run D m =
      ((body.run D (m.child bindings)).mapMachine fun c => { m with root := c.root }).andThen
        fun n => (next (body.run D (m.child bindings)).machine.stack).run D n := by
  simp only [Procedure.run]
  generalize body.run D (m.child bindings) = o
  obtain ⟨fault?, c⟩ := o
  cases fault? <;> rfl

/-- Going on with nothing changes nothing. -/
theorem Outcome.andThen_done (o : Outcome) : (o.andThen fun m => ⟨none, m⟩) = o := by
  obtain ⟨fault?, m⟩ := o
  cases fault? <;> rfl

namespace Outcome.Matches

variable {R : Machine → Machine → Prop} {lost : Fault → Prop} {o o' : Outcome}

/-- Where the first outcome has no fault, the states are related. -/
theorem of_ok (h : Matches R lost o o') (hfault : o.fault? = none) : R o.machine o'.machine := by
  rcases h with ⟨fault, hsome, -⟩ | ⟨-, hR⟩
  · cases hsome.symm.trans hfault
  · exact hR

theorem of_eq {fault? : Option Fault} {m n : Machine} (h : R m n) :
    Matches R lost ⟨fault?, m⟩ ⟨fault?, n⟩ :=
  Or.inr ⟨rfl, h⟩

/-- Matching outcomes go on to matching outcomes, where it counts how the first one has ended. -/
theorem andThen_of_ok {next next' : Machine → Outcome} (h : Matches R lost o o')
    (hnext : o.fault? = none → R o.machine o'.machine →
      Matches R lost (next o.machine) (next' o'.machine)) :
    Matches R lost (o.andThen next) (o'.andThen next') := by
  obtain ⟨fault?, m⟩ := o
  obtain ⟨fault?', n⟩ := o'
  rcases h with ⟨fault, hfault, hlost⟩ | ⟨hfault, hR⟩
  · -- a fault that is given up stops the first run here, too
    simp only at hfault
    subst hfault
    exact Or.inl ⟨fault, rfl, hlost⟩
  · simp only at hfault hR
    subst hfault
    cases fault? with
    | none => exact hnext rfl hR
    | some fault => exact of_eq hR

/-- Matching outcomes go on to matching outcomes. -/
theorem andThen {next next' : Machine → Outcome} (h : Matches R lost o o')
    (hnext : ∀ m n, R m n → Matches R lost (next m) (next' n)) :
    Matches R lost (o.andThen next) (o'.andThen next') :=
  h.andThen_of_ok fun _ hR => hnext _ _ hR

/-- Matching outcomes match when wrapped, if wrapping leaves no fault that is given up. -/
theorem wrap (hwrap : ∀ fault, lost fault → lost fault.wrap) (h : Matches R lost o o') :
    Matches R lost o.wrap o'.wrap := by
  rcases h with ⟨fault, hfault, hlost⟩ | ⟨hfault, hR⟩
  · refine Or.inl ⟨fault.wrap, ?_, hwrap fault hlost⟩
    simp [Outcome.wrap, hfault]
  · refine Or.inr ⟨?_, hR⟩
    simp [Outcome.wrap, hfault]

/-- Related changes of the states keep a match. -/
theorem mapMachine {S : Machine → Machine → Prop} {f g : Machine → Machine}
    (h : Matches R lost o o') (hfg : ∀ m n, R m n → S (f m) (g n)) :
    Matches S lost (o.mapMachine f) (o'.mapMachine g) := by
  rcases h with hlost | ⟨hfault, hR⟩
  · exact Or.inl hlost
  · exact Or.inr ⟨hfault, hfg _ _ hR⟩

section
variable {D D' : Dispatch} (hpush : ∀ {m n : Machine} (v : Value), R m n → R (m.push v) (n.push v))
include hpush

/-- Executing a value keeps a relation that pushing and dispatching keep. -/
theorem value (hD : ∀ name m n, R m n → Matches R lost (D name m) (D' name n)) (v : Value)
    {m n : Machine} (h : R m n) : Matches R lost (v.execute D m) (v.execute D' n) := by
  cases v with
  | number x => exact of_eq (hpush _ h)
  | symbol name => exact hD name m n h
  | block items => exact of_eq (hpush _ h)

/-- So does executing instructions. -/
theorem each (hD : ∀ name m n, R m n → Matches R lost (D name m) (D' name n))
    (program : List Instruction) {m n : Machine} (h : R m n) :
    Matches R lost (executeEach D program m) (executeEach D' program n) := by
  induction program generalizing m n with
  | nil => exact of_eq h
  | cons instruction rest ih =>
    refine andThen ?_ fun m n h => ih h
    cases instruction with
    | value v => exact value hpush hD v h
    | foreign kind => exact of_eq h

end

end Outcome.Matches

namespace Lockstep

variable {R : Machine → Machine → Prop} {lost : Fault → Prop} {D D' : Dispatch}

theorem push (hR : Lockstep R) {m n : Machine} (v : Value) (h : R m n) : R (m.push v) (n.push v) := by
  have hstack := hR.stack_eq h
  simp only [Machine.push, hstack]
  exact hR.restack _ h

/-- Executing a value keeps the relation. -/
theorem value (hR : Lockstep R) (hD : ∀ name m n, R m n → (D name m).Matches R lost (D' name n))
    (v : Value) {m n : Machine} (h : R m n) :
    (v.execute D m).Matches R lost (v.execute D' n) :=
  .value hR.push hD v h

/-- Executing instructions keeps the relation. -/
theorem each (hR : Lockstep R) (hD : ∀ name m n, R m n → (D name m).Matches R lost (D' name n))
    (instructions : List Instruction) {m n : Machine} (h : R m n) :
    (executeEach D instructions m).Matches R lost (executeEach D' instructions n) :=
  .each hR.push hD instructions h

/-- Running a procedure keeps the relation. -/
theorem run (hR : Lockstep R) (hD : ∀ name m n, R m n → (D name m).Matches R lost (D' name n))
    (body : Procedure) {m n : Machine} (h : R m n) :
    (body.run D m).Matches R lost (body.run D' n) := by
  induction body generalizing m n with
  | done => exact .of_eq h
  | fail fault => exact .of_eq h
  | push v next ih => exact ih (hR.push v h)
  | pop next ih =>
    simp only [Procedure.run, ← hR.stack_eq h]
    cases m.stack with
    | nil => exact .of_eq h
    | cons v rest => exact ih v (hR.restack rest h)
  | peek next ih =>
    simp only [Procedure.run, ← hR.stack_eq h]
    exact ih _ h
  | clear next ih => exact ih (hR.restack [] h)
  | height next ih =>
    simp only [Procedure.run, ← hR.stack_eq h]
    exact ih _ h
  | depth next ih =>
    simp only [Procedure.run, ← hR.depth_eq h]
    exact ih _ h
  | context next ih =>
    simp only [Procedure.run, ← hR.context_eq h]
    exact ih _ h
  | popBindings next ih =>
    simp only [Procedure.run, ← hR.stack_eq h]
    split
    · exact .of_eq (hR.restack [] h)
    · exact ih _ _ (hR.restack _ h)
  | mint next ih =>
    simp only [Procedure.run, ← hR.nextName_eq h]
    exact ih _ (hR.countName h)
  | register name cell next ih => exact ih (hR.set name cell h)
  | execute v next ih => exact (hR.value hD v h).andThen fun m n h => ih h
  | inChild bindings body next ihBody ihNext =>
    rw [Procedure.run_inChild, Procedure.run_inChild]
    have hbody := ihBody (hR.child bindings h)
    -- the procedure ends either in the child or behind it
    refine (hbody.mapMachine fun c d hc => hR.back h hc).andThen_of_ok fun hfault hback => ?_
    rw [hR.stack_eq (hbody.of_ok hfault)]
    exact ihNext _ hback
  | emit event next ih => exact ih (hR.emit event h)

/-- Invoking a cell keeps the relation. -/
theorem invoke (hR : Lockstep R) (hwrap : ∀ fault, lost fault → lost fault.wrap)
    (hD : ∀ name m n, R m n → (D name m).Matches R lost (D' name n)) (name : String) (cell : Cell)
    {m n : Machine} (h : R m n) :
    (cell.invoke D name m).Matches R lost (cell.invoke D' name n) := by
  cases cell with
  | program instructions => exact hR.each hD instructions (hR.emit _ h)
  | values items => exact .of_eq (hR.push _ h)
  | external body => exact (hR.run hD body (hR.emit _ h)).wrap hwrap
  | foreign content => exact .of_eq h

end Lockstep

end QuoteStack

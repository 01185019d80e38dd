import QuoteStack.Builtin
import QuoteStack.Proofs.Run.Cells
import QuoteStack.Proofs.Run.Depth

/-!
Runs without printing. Where the procedure that prints is replaced by one that does nothing, under
whatever names it is bound, programs find related cells and go through the same operations, up to the
lines that are printed and the records of them. The main statement is `Machine.execute_quieter`.
-/

namespace QuoteStack

/-! ## What differs -/

/-- The second cell is the first one, or does nothing where the first one prints. -/
def Cell.Quieter (cell cell' : Cell) : Prop :=
  cell' = cell ∨ cell = .external Builtin.print ∧ cell' = .external .done

/-- A name is bound to nothing on either side, or to cells that differ in printing at most. -/
abbrev QuieterFound (found? found?' : Option Cell) : Prop :=
  Option.Rel Cell.Quieter found? found?'

/-- The same names are bound, to cells that differ in printing at most. -/
def Registers.Quieter (registers registers' : Registers) : Prop :=
  ∀ name, QuieterFound (registers.find? name) (registers'.find? name)

namespace Event

/-- The second journal is the first one without some of the lines that are printed, each of them left
out with the record of it. -/
inductive Muted : List Event → List Event → Prop where
  | nil : Muted [] []
  | keep (event : Event) {events events' : List Event} (h : Muted events events') :
      Muted (event :: events) (event :: events')
  | drop (text : String) {events events' : List Event} (h : Muted events events') :
      Muted (.printed text :: .shown text :: events) events'

/-- Whether an event belongs to printing. -/
def isShow : Event → Bool
  | .printed _ | .shown _ => true
  | _ => false

/-- What does not belong to printing happens on both sides. -/
theorem Muted.filter_eq {events events' : List Event} (h : Muted events events') :
    (events'.filter fun event => !event.isShow) = events.filter fun event => !event.isShow := by
  induction h with
  | nil => rfl
  | keep event _ ih => rw [List.filter_cons, List.filter_cons, ih]
  | drop text _ ih =>
    -- the line and its record both belong to printing
    exact ih

end Event

theorem Cell.Quieter.refl (cell : Cell) : cell.Quieter cell :=
  Or.inl rfl

theorem QuieterFound.refl (found? : Option Cell) : QuieterFound found? found? := by
  cases found? with
  | none => exact .none
  | some cell => exact .some (.refl cell)

/-- What is found first is related, if the first places are and the others are. -/
theorem QuieterFound.or {first? first?' rest? rest?' : Option Cell}
    (hfirst : QuieterFound first? first?') (hrest : QuieterFound rest? rest?') :
    QuieterFound (first?.or rest?) (first?'.or rest?') := by
  cases hfirst with
  | none => exact hrest
  | some h => exact .some h

/-- A name that is bound to one cell on both sides is bound to related cells. -/
theorem QuieterFound.ite {found? found?' : Option Cell} (h : QuieterFound found? found?')
    (p : Prop) [Decidable p] (cell : Cell) :
    QuieterFound (if p then some cell else found?) (if p then some cell else found?') := by
  by_cases hp : p
  · rw [if_pos hp, if_pos hp]
    exact .refl _
  · rw [if_neg hp, if_neg hp]
    exact h

/-- Where a name is bound to the procedure that prints, it may be bound to one that does nothing. -/
theorem Registers.quieter_set {registers : Registers} {name : String}
    (h : registers.find? name = some (.external Builtin.print)) :
    registers.Quieter (registers.set name (.external .done)) := by
  intro other
  rw [find?_set]
  by_cases hother : other = name
  · rw [if_pos hother, hother, h]
    exact .some (Or.inr ⟨rfl, rfl⟩)
  · rw [if_neg hother]
    exact .refl _

namespace Machine

/-- The second state differs from the first one in printing at most: in cells that print, and in what
has been printed since the journals were the given ones. -/
structure Quieter (before before' : List Event) (m n : Machine) : Prop where
  stack : n.stack = m.stack
  own : m.scope.own.Quieter n.scope.own
  found : ∀ name, QuieterFound (m.find? name) (n.find? name)
  counters : n.counters = m.counters
  minted : n.root.minted = m.root.minted
  journal : ∃ events events', m.root.journal = events ++ before ∧
    n.root.journal = events' ++ before' ∧ Event.Muted events events'

namespace Quieter

variable {before before' : List Event} {m n c d : Machine}

theorem depth_eq (h : Quieter before before' m n) : n.root.depth = m.root.depth :=
  congrArg Prod.fst h.counters

theorem limits_eq (h : Quieter before before' m n) : n.root.limits = m.root.limits :=
  congrArg Prod.snd h.counters

theorem set (h : Quieter before before' m n) (name : String) (cell : Cell) :
    Quieter before before' (m.set name cell) (n.set name cell) where
  stack := h.stack
  own other := by
    show QuieterFound ((m.scope.own.set name cell).find? other)
      ((n.scope.own.set name cell).find? other)
    rw [Registers.find?_set, Registers.find?_set]
    exact (h.own other).ite _ cell
  found other := by
    rw [find?_set, find?_set]
    exact (h.found other).ite _ cell
  counters := h.counters
  minted := h.minted
  journal := h.journal

theorem emit (h : Quieter before before' m n) (event : Event) :
    Quieter before before' (m.emit event) (n.emit event) where
  stack := h.stack
  own := h.own
  found := h.found
  counters := h.counters
  minted := h.minted
  journal := by
    obtain ⟨events, events', hm, hn, hmuted⟩ := h.journal
    exact ⟨event :: events, event :: events', congrArg (event :: ·) hm, congrArg (event :: ·) hn,
      hmuted.keep event⟩

/-- A line may be printed in the first state only. -/
theorem emit_show (h : Quieter before before' m n) (text : String) :
    Quieter before before' ((m.emit (.shown text)).emit (.printed text)) n where
  stack := h.stack
  own := h.own
  found := h.found
  counters := h.counters
  minted := h.minted
  journal := by
    obtain ⟨events, events', hm, hn, hmuted⟩ := h.journal
    refine ⟨.printed text :: .shown text :: events, events', ?_, hn, hmuted.drop text⟩
    exact congrArg (fun journal => .printed text :: .shown text :: journal) hm

theorem child (h : Quieter before before' m n) (bindings : List (String × Value)) :
    Quieter before before' (m.child bindings) (n.child bindings) where
  stack := rfl
  own _ := .refl _
  found name := by
    rw [find?_child, find?_child]
    exact (QuieterFound.refl _).or (h.found name)
  counters := h.counters
  minted := h.minted
  journal := h.journal

theorem enter (h : Quieter before before' m n) : Quieter before before' m.enter n.enter where
  stack := h.stack
  own := h.own
  found := h.found
  counters := counters_enter_congr h.counters
  minted := h.minted
  journal := h.journal

theorem leave (h : Quieter before before' m n) : Quieter before before' m.leave n.leave where
  stack := h.stack
  own := h.own
  found := h.found
  counters := counters_leave_congr h.counters
  minted := h.minted
  journal := h.journal

end Quieter

/-- No operation tells apart whether there is printing. -/
theorem lockstep_quieter (before before' : List Event) : Lockstep (Quieter before before') where
  stack_eq h := h.stack.symm
  depth_eq h := h.depth_eq.symm
  context_eq h := by rw [h.limits_eq]
  nextName_eq h := by rw [nextName, nextName, h.minted]
  restack _ h := ⟨rfl, h.own, h.found, h.counters, h.minted, h.journal⟩
  set name cell h := h.set name cell
  emit event h := h.emit event
  countName h := ⟨h.stack, h.own, h.found, h.counters, congrArg (· + 1) h.minted, h.journal⟩
  child bindings h := h.child bindings
  back h hc := ⟨h.stack, h.own, h.found, hc.counters, hc.minted, hc.journal⟩

section
variable {before before' : List Event} {lost : Fault → Prop} {D D' : Dispatch} {m n : Machine}

/-- Printing and doing nothing end without a fault, and nothing else than printing differs. -/
theorem invoke_print (h : Quieter before before' m n) (name : String) :
    ((Cell.external Builtin.print).invoke D name m).Matches (Quieter before before') lost
      ((Cell.external .done).invoke D' name n) := by
  -- both sides are called by the name; only the first one goes on to print
  have hcalled := h.emit (.called name)
  exact .of_eq (hcalled.emit_show (Value.renderTop m.stack.head?))

/-- Invoking cells that differ in printing at most. -/
theorem invoke_quieter (hwrap : ∀ fault, lost fault → lost fault.wrap)
    (hD : ∀ name m n, Quieter before before' m n →
      (D name m).Matches (Quieter before before') lost (D' name n))
    (name : String) {cell cell' : Cell} (hcell : cell.Quieter cell')
    (h : Quieter before before' m n) :
    (cell.invoke D name m).Matches (Quieter before before') lost (cell'.invoke D' name n) := by
  rcases hcell with rfl | ⟨rfl, rfl⟩
  · exact (lockstep_quieter before before').invoke hwrap hD name cell' h
  · exact invoke_print h name

/-- With the same room, dispatches differ in printing at most. -/
theorem dispatchWithin_quieter (room : Nat) (name : String) (m n : Machine)
    (h : Quieter before before' m n) :
    (dispatchWithin room name m).Matches (Quieter before before') (fun _ => False)
      (dispatchWithin room name n) := by
  induction room generalizing name m n with
  | zero =>
    have hfound := h.found name
    generalize hm : m.find? name = found? at hfound
    generalize hn : n.find? name = found?' at hfound
    simp only [dispatchWithin, hm, hn, h.limits_eq]
    cases hfound with
    | none => exact .of_eq h
    | some _ => exact .of_eq h
  | succ room ih =>
    have hfound := h.found name
    generalize hm : m.find? name = found? at hfound
    generalize hn : n.find? name = found?' at hfound
    -- a name is bound on both sides or on neither
    cases hfound with
    | none =>
      simp only [dispatchWithin, hm, hn]
      exact .of_eq h
    | some hcell =>
      rw [dispatchWithin_succ room hm, dispatchWithin_succ room hn]
      have hinvoke := invoke_quieter (fun _ hlost => hlost) ih name hcell h.enter
      exact hinvoke.mapMachine fun _ _ hleft => hleft.leave

/-- Executing a program ends with the same fault or none, and the states that are left differ in
printing at most. -/
theorem execute_quieter (h : Quieter before before' m n) (program : List Instruction) :
    (n.execute program).fault? = (m.execute program).fault? ∧
      Quieter before before' (m.execute program).machine (n.execute program).machine := by
  have hroom : n.room = m.room := room_eq_of_counters h.counters
  have hmatch := (lockstep_quieter before before').each (dispatchWithin_quieter m.room) program h
  unfold execute
  rw [hroom]
  rcases hmatch with ⟨_, _, hlost⟩ | ⟨hfault, hleft⟩
  · exact hlost.elim
  · exact ⟨hfault.symm, hleft⟩

end

end Machine

end QuoteStack

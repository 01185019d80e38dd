import QuoteStack.Machine.Source
import QuoteStack.Proofs.Program.Append
import QuoteStack.Proofs.Run.View

/-!
Running joined program texts. A program is executed from its first value on, and the values of the
text on the right come first, so two texts with a blank between them run from right to left: as if
the right one was run, and then, unless that has failed, the left one. Only the log tells one run
from two. The main statement is `evaluate_append`.
-/

namespace QuoteStack

namespace Machine

/-- The lines that have been printed, in order. -/
def lines (m : Machine) : List String :=
  m.root.journal.reverse.filterMap Event.line?

/-- The states differ in nothing but the log. -/
structure SameButLog (m n : Machine) : Prop where
  stack : m.stack = n.stack
  scope : m.scope = n.scope
  counters : m.counters = n.counters
  minted : m.root.minted = n.root.minted
  lines : m.lines = n.lines

theorem lines_emit (m : Machine) (event : Event) :
    (m.emit event).lines = m.lines ++ event.line?.toList := by
  simp only [lines, emit, List.reverse_cons, List.filterMap_append, List.filterMap_cons,
    List.filterMap_nil]
  cases event.line? <;> rfl

namespace SameButLog

variable {m n c d : Machine}

theorem refl (m : Machine) : SameButLog m m :=
  ⟨rfl, rfl, rfl, rfl, rfl⟩

theorem symm (h : SameButLog m n) : SameButLog n m :=
  ⟨h.stack.symm, h.scope.symm, h.counters.symm, h.minted.symm, h.lines.symm⟩

theorem trans (h : SameButLog m n) (h' : SameButLog n c) : SameButLog m c :=
  ⟨h.stack.trans h'.stack, h.scope.trans h'.scope, h.counters.trans h'.counters,
    h.minted.trans h'.minted, h.lines.trans h'.lines⟩

/-- An event that prints nothing shows in the log only. -/
theorem emit_silent {event : Event} (hsilent : event.line? = none) (m : Machine) :
    SameButLog (m.emit event) m := by
  refine ⟨rfl, rfl, rfl, rfl, ?_⟩
  rw [lines_emit, hsilent, Option.toList_none, List.append_nil]

/-- Warning about a text and noting that it starts shows in the log only. -/
theorem started (m : Machine) (warning? : Option Program.Warning) (count : Nat) :
    SameButLog ((m.warn warning?).emit (.started count)) m := by
  refine (emit_silent rfl _).trans ?_
  cases warning? with
  | none => exact refl m
  | some warning => exact emit_silent rfl m

theorem emit (h : SameButLog m n) (event : Event) : SameButLog (m.emit event) (n.emit event) := by
  refine ⟨h.stack, h.scope, h.counters, h.minted, ?_⟩
  rw [lines_emit, lines_emit, h.lines]

theorem child (h : SameButLog m n) (bindings : List (String × Value)) :
    SameButLog (m.child bindings) (n.child bindings) where
  stack := rfl
  scope := by rw [Machine.child, Machine.child, h.scope]
  counters := h.counters
  minted := h.minted
  lines := h.lines

theorem depth_eq (h : SameButLog m n) : m.root.depth = n.root.depth :=
  congrArg Prod.fst h.counters

theorem limits_eq (h : SameButLog m n) : m.root.limits = n.root.limits :=
  congrArg Prod.snd h.counters

theorem enter (h : SameButLog m n) : SameButLog m.enter n.enter where
  stack := h.stack
  scope := h.scope
  counters := counters_enter_congr h.counters
  minted := h.minted
  lines := h.lines

theorem leave (h : SameButLog m n) : SameButLog m.leave n.leave where
  stack := h.stack
  scope := h.scope
  counters := counters_leave_congr h.counters
  minted := h.minted
  lines := h.lines

end SameButLog

/-- No run tells apart states that differ in the log only. -/
theorem unobserved_sameButLog : Unobserved SameButLog where
  stack_eq h := h.stack
  depth_eq h := h.depth_eq
  context_eq h := by rw [h.limits_eq]
  nextName_eq h := by rw [nextName, nextName, h.minted]
  restack stack h := ⟨rfl, h.scope, h.counters, h.minted, h.lines⟩
  set name cell h := ⟨h.stack, congrArg (·.set name cell) h.scope, h.counters, h.minted, h.lines⟩
  emit event h := h.emit event
  countName h := ⟨h.stack, h.scope, h.counters, congrArg (· + 1) h.minted, h.lines⟩
  child bindings h := h.child bindings
  back h hc := ⟨h.stack, h.scope, hc.counters, hc.minted, hc.lines⟩
  found_eq h name := congrArg (·.find? name) h.scope
  counters_eq h := h.counters
  enter h := h.enter
  leave h := h.leave

end Machine

/-- The outcomes differ in nothing but the log: the fault, if there is one, is the same, and so is
all that is left behind. -/
structure Outcome.SameButLog (o o' : Outcome) : Prop where
  fault : o.fault? = o'.fault?
  machine : o.machine.SameButLog o'.machine

/-- Outcomes that differ in the log only go on to outcomes that do. -/
theorem Outcome.SameButLog.andThen {o o' : Outcome} {next next' : Machine → Outcome}
    (h : o.SameButLog o')
    (hnext : ∀ m n, Machine.SameButLog m n → (next m).SameButLog (next' n)) :
    (o.andThen next).SameButLog (o'.andThen next') := by
  obtain ⟨fault?, m⟩ := o
  obtain ⟨fault?', n⟩ := o'
  obtain ⟨hfault, hmachine⟩ := h
  obtain rfl : fault? = fault?' := hfault
  cases fault? with
  | none => exact hnext m n hmachine
  | some fault => exact ⟨rfl, hmachine⟩

theorem executeEach_append (D : Dispatch) (first second : List Instruction) (m : Machine) :
    executeEach D (first ++ second) m =
      (executeEach D first m).andThen fun m => executeEach D second m := by
  induction first generalizing m with
  | nil => rfl
  | cons instruction rest ih =>
    rw [List.cons_append, executeEach, executeEach]
    -- both sides stop at the same instruction
    obtain ⟨fault?, n⟩ := instruction.execute D m
    cases fault? with
    | none => exact ih n
    | some fault => rfl

namespace Machine

/-- A program of two parts is executed in two steps. -/
theorem execute_append (m : Machine) (first second : List Instruction) :
    m.execute (first ++ second) = (m.execute first).andThen fun m => m.execute second := by
  simp only [execute_eq, executeEach_append]

theorem execute_sameButLog {m n : Machine} (h : SameButLog m n) (program : List Instruction) :
    (m.execute program).SameButLog (n.execute program) := by
  obtain ⟨hfault, hmachine⟩ := unobserved_sameButLog.execute h program
  exact ⟨hfault, hmachine⟩

/-- Running a program text is executing its program, but for the log. -/
theorem evaluate_sameButLog {source : String} {program : List Value}
    (h : Program.programOf source = .ok program) {m n : Machine} (hmn : SameButLog m n) :
    (m.evaluate source).SameButLog (n.execute (program.map .value)) := by
  unfold Program.programOf at h
  unfold evaluate
  cases hread : Program.ofSource source with
  | error fault =>
    rw [hread] at h
    cases h
  | ok reading =>
    rw [hread] at h
    obtain rfl : reading.program = program := Except.ok.inj h
    exact execute_sameButLog ((SameButLog.started m _ _).trans hmn) _

/-- A text that cannot be read is not run. -/
theorem evaluate_of_error {source : String} {fault : Fault}
    (h : Program.programOf source = .error fault) (m : Machine) :
    m.evaluate source = ⟨some fault, m⟩ := by
  unfold Program.programOf at h
  unfold evaluate
  cases hread : Program.ofSource source with
  | error other =>
    rw [hread] at h
    obtain rfl : other = fault := Except.error.inj h
    rfl
  | ok reading =>
    rw [hread] at h
    cases h

/-- Two texts with a blank between them, the first of which is nested as it should be, are one
program: that of the second text, and then that of the first. So they run from right to left, as if
the second text was run and then, unless that has failed, the first one; what is left behind differs
in the log only. This goes for any second text, however it is nested. Where the first text cannot be
read, which takes more than `storableLength` characters, neither of them is run. -/
theorem evaluate_append (s t : String)
    (hs : ∀ reading, Program.ofSource s = .ok reading → reading.warning? = none) :
    Program.programOf (s ++ " " ++ t) =
      ((Program.programOf s).bind fun first =>
        (Program.programOf t).map fun second => second ++ first) ∧
    ∀ m : Machine,
      match Program.programOf s with
      | .ok _ => (m.evaluate (s ++ " " ++ t)).SameButLog
          ((m.evaluate t).andThen fun m => m.evaluate s)
      | .error fault => m.evaluate (s ++ " " ++ t) = ⟨some fault, m⟩ := by
  have hprogram := Program.programOf_append t hs
  refine ⟨hprogram, fun m => ?_⟩
  cases hfirst : Program.programOf s with
  | error fault =>
    rw [hfirst] at hprogram
    exact evaluate_of_error hprogram m
  | ok first =>
    rw [hfirst] at hprogram
    cases hsecond : Program.programOf t with
    | error fault =>
      rw [hsecond] at hprogram
      rw [evaluate_of_error hprogram, evaluate_of_error hsecond]
      exact ⟨rfl, .refl m⟩
    | ok second =>
      rw [hsecond] at hprogram
      have hjoined := evaluate_sameButLog hprogram (.refl m)
      rw [List.map_append, execute_append] at hjoined
      have hsplit : ((m.evaluate t).andThen fun m => m.evaluate s).SameButLog
          ((m.execute (second.map .value)).andThen fun m => m.execute (first.map .value)) :=
        (evaluate_sameButLog hsecond (.refl m)).andThen fun _ _ hmn =>
          evaluate_sameButLog hfirst hmn
      exact ⟨hjoined.fault.trans hsplit.fault.symm, hjoined.machine.trans hsplit.machine.symm⟩

/-- A closing mark of no block at the end of the second text is no trouble. -/
theorem evaluate_append_sum_of_stray :
    let s := "sum 1"
    let t := "2\x7d"
    (∀ reading, Program.ofSource s = .ok reading → reading.warning? = none) ∧
      Program.programOf (s ++ " " ++ t) =
        .ok [.number (.ofNat 2), .number (.ofNat 1), .symbol "sum"] ∧
      ((Machine.new {}).evaluate (s ++ " " ++ t)).SameButLog
        (((Machine.new {}).evaluate t).andThen fun m => m.evaluate s) := by
  intro s t
  have hs : Program.ofSource s = .ok ⟨[.number (.ofNat 1), .symbol "sum"], [], none⟩ :=
    Program.ofSource_of_text (by decide) (by decide)
  have ht : Program.ofSource t = .ok ⟨[.number (.ofNat 2)], [], some (.strayClose 1)⟩ := by
    have htwo : (Value.number (.ofNat 2)).IsLiteral := by decide
    have hblank : ∀ c ∈ [' '], Text.isBlank c = true := List.forall_mem_singleton.mpr (by decide)
    have hread := Program.readsBack_of_isLiteral (List.cons_ne_nil ' ' []) hblank htwo
      [Token.closeMark] 0 [] [] fun c hc => Or.inr (Option.some.inj hc).symm
    have htext : t.toList = (Value.number (.ofNat 2)).write [' '] ++ [Token.closeMark] := by decide
    rw [Token.tokensFrom_closeMark, Token.tokensFrom_nil, ← htext] at hread
    exact hread
  have hnone : ∀ reading, Program.ofSource s = .ok reading → reading.warning? = none := by
    intro reading hreading
    rw [Except.ok.inj (hreading.symm.trans hs)]
  obtain ⟨hprogram, hrun⟩ := evaluate_append s t hnone
  have hfirst : Program.programOf s = .ok [.number (.ofNat 1), .symbol "sum"] := by
    rw [Program.programOf, hs]
    rfl
  refine ⟨hnone, ?_, ?_⟩
  · rw [hprogram, hfirst, Program.programOf, ht]
    rfl
  · have hjoined := hrun (Machine.new {})
    rw [hfirst] at hjoined
    exact hjoined

end Machine

end QuoteStack

import QuoteStack.Proofs.Program.Mass
import QuoteStack.Proofs.Run.Law
import QuoteStack.Proofs.Run.Native

/-!
How program texts fail. Nothing but the builtin procedures, closures and the values of bindings is
ever found under a name, so a run ends with a symbol of the program that is not bound, with the limit
on nested dispatches, or with a fault of a builtin procedure that has been wrapped once. The values
that come up weigh no more than the text allows, which tells where there may be no memory for a
result. The main statement is `fault_runProgram`.
-/

namespace QuoteStack

namespace Fault

/-- A fault that has not been wrapped, and that is not the limit on nested dispatches. -/
def IsPlain : Fault → Prop
  | .external _ | .callDepth _ => False
  | _ => True

/-- Plain faults are the ones that are wrapped. -/
theorem wrap_of_isPlain {fault : Fault} (h : fault.IsPlain) : fault.wrap = .external fault := by
  cases fault with
  | external _ | callDepth _ => exact h.elim
  | _ => rfl

/-- Why a builtin procedure may fail under given limits, where values weigh at most a size: there is
no value, or none of the right kind, or two blocks differ in length, or a symbol is not bound, or
numbers have no result, or dispatches nest too deep and the limit has too many digits to be told. -/
def CanArise (limits : Limits) (size : Nat) : Fault → Prop
  | .stackUnderflow | .undefinedSymbol _ => True
  | .foldOfValue _ _ | .foldOfNothing _ | .kindMismatch _ _ | .symbolOperands => True
  | .closureOfValue _ => True
  | .lengthMismatch _ _ => True
  | .notAPair _ | .notABinding _ => True
  | .arithmetic fault => fault.CanArise limits.toContext size
  | .longLimit => ¬ Text.IsShort limits.maxDepth
  | _ => False

theorem CanArise.isPlain {limits : Limits} {size : Nat} {fault : Fault}
    (h : fault.CanArise limits size) : fault.IsPlain := by
  cases fault with
  | external _ | callDepth _ => exact h.elim
  | _ => trivial

end Fault

/-- What programs can find under names: the builtin procedures under their own names, closures of
blocks, and the values of bindings. -/
inductive Cell.IsBasic (value : Value → Prop) : String → Cell → Prop where
  | builtin {name : String} {cell : Cell} (h : (name, cell) ∈ Builtin.cells) :
      IsBasic value name cell
  | closure {name : String} {items : List Value} (h : ∀ v ∈ items, value v) :
      IsBasic value name (.external (.executeAll items))
  | binding {name : String} {v : Value} (h : value v) : IsBasic value name (.values [v])

/-- Procedures and stored blocks are all that is found. -/
theorem Cell.IsBasic.cases_of {value : Value → Prop} {name : String} {cell : Cell}
    (h : cell.IsBasic value name) :
    (∃ body, cell = .external body) ∨ ∃ v, cell = .values [v] ∧ value v := by
  cases h with
  | builtin h =>
    obtain ⟨body, rfl, -⟩ := Builtin.exists_body_of_mem_cells h
    exact Or.inl ⟨body, rfl⟩
  | closure h => exact Or.inl ⟨_, rfl⟩
  | binding h => exact Or.inr ⟨_, rfl, h⟩

namespace Law

/-- The law of programs whose values weigh at most a size. -/
def ofPrograms (limits : Limits) (size : Nat) : Law where
  limits
  value v := v.mass limits.margin ≤ size
  cell := Cell.IsBasic fun v => v.mass limits.margin ≤ size
  fault fault := fault.CanArise limits size

variable {limits : Limits} {size depth : Nat} {m : Machine}

/-! ## The builtin procedures -/

/-- Procedures that make closures and bindings keep to the law. -/
theorem isClosed_ofPrograms : (ofPrograms limits size).criterion.IsClosed :=
  isClosed_criterion (fun _ => Nat.zero_le _)
    (fun hblock v hv => Nat.le_trans (Value.mass_le_of_mem hv) hblock)
    (fun _ _ hitems => .closure hitems) fun hraises => by cases hraises <;> trivial

theorem Holds.afterCalls {law : Law} (h : law.Holds depth m) (name : String) (calls : Nat)
    {stack : List Value} (hstack : ∀ v ∈ stack, law.value v) :
    law.Holds depth (m.afterCalls name calls stack) :=
  ⟨h.counters, hstack, h.binds⟩

/-- A refusal is a fault that passes, and leaves a value that may be. -/
theorem passes_refusal {refusal : Refusal} (h : refusal.CanArise limits size) :
    (ofPrograms limits size).Passes (refusal.fault limits) ∧
      ∀ v ∈ refusal.remnant, (ofPrograms limits size).value v := by
  have hnone : ∀ v ∈ ([] : List Value), (ofPrograms limits size).value v := fun v hv =>
    absurd hv List.not_mem_nil
  cases refusal with
  | tooDeep v w =>
    refine ⟨passes_wrap_depthFault id, List.forall_mem_singleton.mpr ?_⟩
    show Value.massAll limits.margin [v, w] ≤ size
    simp only [Value.massAll, Nat.add_zero]
    exact h
  | arithmetic fault => exact ⟨Or.inr ⟨.arithmetic fault, rfl, h⟩, hnone⟩
  | symbols => exact ⟨Or.inr ⟨.symbolOperands, rfl, trivial⟩, hnone⟩
  | kinds left right => exact ⟨Or.inr ⟨.kindMismatch left right, rfl, trivial⟩, hnone⟩
  | lengths left right => exact ⟨Or.inr ⟨.lengthMismatch left right, rfl, trivial⟩, hnone⟩

/-- Going the way of a combination leaves what may be, if the combination bears it. -/
theorem leaves_ending {name : String} {calls : Nat} {result : Except Refusal Value}
    {next : Value → Machine → Outcome} (h : (ofPrograms limits size).Holds depth m)
    (hresult : Operation.Bears limits size (Value.mass limits.margin) result)
    (hnext : ∀ v m, (ofPrograms limits size).value v → (ofPrograms limits size).Holds depth m →
      (ofPrograms limits size).Leaves depth (next v m)) :
    (ofPrograms limits size).Leaves depth (m.ending name calls result next) := by
  cases result with
  | ok v => exact hnext v _ hresult (h.afterCalls name calls h.stack)
  | error refusal =>
    obtain ⟨hpasses, hremnant⟩ := passes_refusal hresult
    refine ⟨h.afterCalls name calls (List.forall_mem_append.mpr ⟨hremnant, h.stack⟩), ?_⟩
    intro fault hfault
    rw [← Option.some.inj hfault, h.limits_eq]
    exact hpasses

/-- An operator that its own name means folds blocks without making them heavier. -/
theorem leaves_fold {operation : Operation} {name : String} (hown : operation.Owns name m)
    (h : (ofPrograms limits size).Holds (depth + 1) m) :
    (ofPrograms limits size).Leaves (depth + 1)
      ((operation.operator name).fold.run Machine.dispatcher m).wrap := by
  have hwrap : ∀ fault, (ofPrograms limits size).fault fault → fault.wrap = .external fault :=
    fun fault hfault => Fault.wrap_of_isPlain hfault.isPlain
  obtain ⟨stack, scope, root⟩ := m
  rcases stack with _ | ⟨operand, rest⟩
  · exact Ends.wrap hwrap id (.of_fault h trivial)
  · obtain ⟨hoperand, hrest⟩ := List.forall_mem_cons.mp h.stack
    -- whatever becomes of the operand, it has been taken
    have htaken := h.restack hrest
    rcases operand with x | x | (_ | ⟨first, others⟩)
    · exact Ends.wrap hwrap id (.of_fault htaken trivial)
    · exact Ends.wrap hwrap id (.of_fault htaken trivial)
    · exact Ends.wrap hwrap id (.of_fault htaken trivial)
    · have hdepth : root.depth = depth + 1 := congrArg Prod.fst h.counters
      have hlimits : root.limits = limits := h.limits_eq
      obtain ⟨calls, hend⟩ := Operation.endsAs_foldFrom others first
        (fun result => .push result .done) ⟨rest, scope, root⟩ hown hdepth
      -- the operand weighs what its items weigh together, which is all that the fold combines
      have hbears := (Operation.bears_fold operation limits depth others first).mono hoperand
      show (ofPrograms limits size).Leaves (depth + 1)
        (((operation.operator name).foldFrom (fun result => .push result .done) first others).run
          Machine.dispatcher ⟨rest, scope, root⟩).wrap
      rw [hend, hlimits]
      refine leaves_ending htaken hbears fun v n hv hn => ?_
      exact ⟨hn.push hv, fun fault hfault => nomatch hfault⟩

/-- What programs do keeps to their law. -/
theorem isSound_ofPrograms (limits : Limits) (size : Nat) : (ofPrograms limits size).IsSound where
  single v hv := by
    show Value.massAll limits.margin [v] ≤ size
    simp only [Value.massAll, Nat.add_zero]
    exact hv
  items items hitems v hv := Nat.le_trans (Value.mass_le_of_mem hv) hitems
  binding name v hv := .binding hv
  underflow := trivial
  undefined name := trivial
  wrap fault hfault := Fault.wrap_of_isPlain hfault.isPlain
  longLimit := id
  stored name items hcell := by
    rcases hcell.cases_of with ⟨body, heq⟩ | ⟨v, heq, hv⟩
    · cases heq
    · obtain rfl := Cell.values.inj heq
      show Value.massAll limits.margin [v] ≤ size
      simp only [Value.massAll, Nat.add_zero]
      exact hv
  -- programs bind nothing but external procedures and values
  program name instructions hcell := by
    rcases hcell.cases_of with ⟨body, heq⟩ | ⟨v, heq, -⟩ <;> cases heq
  foreign name instructions hcell := by
    rcases hcell.cases_of with ⟨body, heq⟩ | ⟨v, heq, -⟩ <;> cases heq
  notACell name content hcell := by
    rcases hcell.cases_of with ⟨body, heq⟩ | ⟨v, heq, -⟩ <;> cases heq
  external name body hcell := by
    cases hcell with
    | closure hitems => exact Or.inl (isClosed_ofPrograms.executeAll hitems)
    | builtin hmem =>
      obtain ⟨body', heq, hbody⟩ := Builtin.exists_body_of_mem_cells hmem
      obtain rfl := Cell.external.inj heq
      rcases hbody with rfl | rfl | rfl | ⟨op, hop, rfl, rfl⟩
      · exact Or.inl fun top? => trivial
      · exact Or.inl isClosed_ofPrograms.makeClosure
      · exact Or.inl isClosed_ofPrograms.bindLocally
      · -- an operator finds itself where its pairs are dispatched
        obtain ⟨operation, -, hoperator⟩ := Builtin.exists_operation_of_mem hop
        refine Or.inr fun depth m h hfind => ?_
        rw [hoperator] at hfind ⊢
        rw [Operation.name_operator] at hfind
        exact leaves_fold hfind h

/-! ## Runs of programs -/

theorem holds_new (limits : Limits) (size : Nat) :
    (ofPrograms limits size).Holds 0 (Machine.new limits) where
  counters := rfl
  stack _ hv := absurd hv List.not_mem_nil
  binds := Machine.binds_ofCells limits fun _ _ hmem => .builtin hmem

/-- A value fails as a symbol that is not bound, or as external procedures fail. -/
theorem fault_value {v : Value} (h : (ofPrograms limits size).Holds depth m) {fault : Fault}
    (hfault : (v.execute Machine.dispatcher m).fault? = some fault) :
    (∃ name, v = .symbol name ∧ fault = .undefinedSymbol name) ∨
      (ofPrograms limits size).Passes fault := by
  cases v with
  | number n => cases hfault
  | block items => cases hfault
  | symbol name =>
    replace hfault : (m.dispatch name).fault? = some fault := hfault
    cases hfind : m.find? name with
    | none =>
      rw [Machine.dispatch_of_unbound hfind] at hfault
      exact Or.inl ⟨name, rfl, (Option.some.inj hfault).symm⟩
    | some cell =>
      -- a stored program could fail with symbols of its own, but none is found
      have hcell : (∃ body, cell = .external body) ∨ ∃ items, cell = .values items := by
        rcases (h.binds.found name cell hfind).cases_of with hbody | ⟨v, heq, -⟩
        · exact Or.inl hbody
        · exact Or.inr ⟨[v], heq⟩
      exact Or.inr (passes_dispatch (isSound_ofPrograms limits size) hfind hcell h hfault)

/-- At the top level a program fails with a symbol of it that is not bound, or as external procedures
fail. -/
theorem fault_each {program : List Value} (hprogram : ∀ v ∈ program, (ofPrograms limits size).value v)
    (h : (ofPrograms limits size).Holds depth m) {fault : Fault}
    (hfault : (executeEach Machine.dispatcher (program.map .value) m).fault? = some fault) :
    (∃ name, .symbol name ∈ program ∧ fault = .undefinedSymbol name) ∨
      (ofPrograms limits size).Passes fault := by
  have hsound := isSound_ofPrograms limits size
  induction program generalizing m with
  | nil => cases hfault
  | cons v rest ih =>
    obtain ⟨hv, hrest⟩ := List.forall_mem_cons.mp hprogram
    have hends := ends_value hsound (fun name m h => ends_dispatch hsound name h) hv h
    have hvalue := @fault_value limits size depth m v h
    rw [List.map_cons, executeEach] at hfault
    simp only [Instruction.execute] at hfault
    generalize v.execute Machine.dispatcher m = o at hends hvalue hfault
    obtain ⟨fault?, n⟩ := o
    cases fault? with
    | some cause =>
      obtain rfl := Option.some.inj hfault
      rcases hvalue rfl with ⟨name, rfl, heq⟩ | hpasses
      · exact Or.inl ⟨name, List.mem_cons_self, heq⟩
      · exact Or.inr hpasses
    | none =>
      -- what the first value has left keeps to the law, and the rest runs from it
      rcases ih hrest hends.holds hfault with ⟨name, hname, heq⟩ | hpasses
      · exact Or.inl ⟨name, List.mem_cons_of_mem _ hname, heq⟩
      · exact Or.inr hpasses

end Law

/-- The most that the values of a program text can weigh. -/
def Program.heaviest (limits : Limits) (source : String) : Nat :=
  (limits.precision.toNat + 2) * source.length

/-- In a new root environment a program text fails with a number that is too long to be stored, with
a symbol of the program that is not bound, with the limit on nested dispatches, or with a fault of a
builtin procedure that has been wrapped once. -/
theorem fault_runProgram {limits : Limits} {source : String} {fault : Fault}
    (hfault : (runProgram limits source).fault? = some fault) :
    (fault = .numberOutOfRange ∧ Decimal.storableLength < source.length) ∨
      (∃ reading name, Program.ofSource source = .ok reading ∧ .symbol name ∈ reading.program ∧
        fault = .undefinedSymbol name) ∨
      fault = limits.depthFault ∨
      ∃ cause, fault = .external cause ∧ cause.CanArise limits (Program.heaviest limits source) := by
  unfold runProgram Machine.evaluate at hfault
  have hread := Program.isLiteral_ofSource source
  cases hresult : Program.ofSource source with
  | error unread =>
    rw [hresult] at hfault hread
    exact Or.inl (Option.some.inj hfault ▸ hread)
  | ok reading =>
    rw [hresult] at hfault
    dsimp only at hfault
    rw [Machine.execute_eq] at hfault
    have hmass := Program.massAll_ofSource limits.margin hresult
    have hprogram : ∀ v ∈ reading.program,
        (Law.ofPrograms limits (Program.heaviest limits source)).value v := fun v hv =>
      Nat.le_trans (Value.mass_le_of_mem hv) hmass
    have hnew := Law.holds_new limits (Program.heaviest limits source)
    rcases Law.fault_each hprogram ((hnew.warn reading.warning?).emit _) hfault with
      ⟨name, hname, heq⟩ | hpasses
    · exact Or.inr (Or.inl ⟨reading, name, rfl, hname, heq⟩)
    · exact Or.inr (Or.inr hpasses)

end QuoteStack

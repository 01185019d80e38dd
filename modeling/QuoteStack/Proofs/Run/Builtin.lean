import QuoteStack.Proofs.Arithmetic.Fold

/-!
What holds of the builtin procedures. They are put together from few operations, so a property of
procedures holds of all of them if each of these operations passes it on. Such a property may rely on
what is known of the values and names that procedures meet, and of what numbers are computed with.
The main statement is `Criterion.IsArithmetic.of_mem_cells`.
-/

namespace QuoteStack

/-- A property of procedures, with what is known of values, names and contexts where they run. -/
structure Criterion where
  procedure : Procedure → Prop
  value : Value → Prop := fun _ => True
  name : String → Prop := fun _ => True
  context : Decimal.Context → Prop := fun _ => True

namespace Criterion

/-- A fault that a builtin procedure raises about what it meets. -/
inductive Raises (c : Criterion) : Fault → Prop where
  | closureOfValue {v : Value} (hv : c.value v) : Raises c (.closureOfValue v)
  | notAPair {v : Value} (hv : c.value v) : Raises c (.notAPair v)
  | notABinding {v : Value} (hv : c.value v) : Raises c (.notABinding v)
  | foldOfNothing {name : String} (hname : c.name name) : Raises c (.foldOfNothing name)
  | foldOfValue {name : String} {v : Value} (hname : c.name name) (hv : c.value v) :
      Raises c (.foldOfValue name v)
  | kindMismatch {v w : Value} (hv : c.value v) (hw : c.value w) : Raises c (.kindMismatch v w)
  | lengthMismatch (left right : Nat) : Raises c (.lengthMismatch left right)
  | symbolOperands : Raises c .symbolOperands

/-- The operations that make closures and bindings pass the property on. -/
structure IsClosed (c : Criterion) : Prop where
  symbol : ∀ {name}, c.name name → c.value (.symbol name)
  items : ∀ {items}, c.value (.block items) → ∀ v ∈ items, c.value v
  done : c.procedure .done
  fail : ∀ {fault}, c.Raises fault → c.procedure (.fail fault)
  push : ∀ {v next}, c.value v → c.procedure next → c.procedure (.push v next)
  pop : ∀ {next}, (∀ v, c.value v → c.procedure (next v)) → c.procedure (.pop next)
  popBindings : ∀ {next}, (∀ bindings v, (∀ name w, (name, w) ∈ bindings → c.value w) → c.value v →
    c.procedure (next bindings v)) → c.procedure (.popBindings next)
  /-- A name is made up and bound to a closure. -/
  registerNew : ∀ {items} {next : String → Procedure}, (∀ v ∈ items, c.value v) →
    c.procedure (.executeAll items) →
    (∀ name, c.name name → c.procedure (next name)) →
      c.procedure (.mint fun name => .register name (.external (.executeAll items)) (next name))
  execute : ∀ {v next}, c.value v → c.procedure next → c.procedure (.execute v next)
  inChild : ∀ {bindings body next}, (∀ name w, (name, w) ∈ bindings → c.value w) →
    c.procedure body → (∀ values, (∀ v ∈ values, c.value v) → c.procedure (next values)) →
      c.procedure (.inChild bindings body next)
  emit : ∀ {event next}, c.procedure next → c.procedure (.emit event next)

/-- So do the operations of arithmetic. -/
structure IsArithmetic (c : Criterion) : Prop extends IsClosed c where
  number : ∀ n, c.value (.number n)
  name : ∀ {name}, c.value (.symbol name) → c.name name
  block : ∀ {items}, (∀ v ∈ items, c.value v) → c.value (.block items)
  join : ∀ {first second}, c.name first → c.name second → c.name (first ++ second)
  operators : ∀ op ∈ Builtin.operators, c.name op.name
  context : ∀ {next}, (∀ context, c.context context → c.procedure (next context)) →
    c.procedure (.context next)
  arithmetic : ∀ {operation : Operation} {context x y fault}, c.context context →
    operation.ofNumbers context x y = .error fault → c.procedure (.fail (.arithmetic fault))

/-! ## Closures and bindings -/

namespace IsClosed

variable {c : Criterion} (hc : c.IsClosed)
include hc

theorem executeAll {items : List Value} (h : ∀ v ∈ items, c.value v) :
    c.procedure (.executeAll items) := by
  induction items with
  | nil => exact hc.done
  | cons v rest ih =>
    obtain ⟨hv, hrest⟩ := List.forall_mem_cons.mp h
    exact hc.execute hv (ih hrest)

theorem pushAll {next : Procedure} (hnext : c.procedure next) {values : List Value}
    (h : ∀ v ∈ values, c.value v) : c.procedure (.pushAll next values) := by
  induction values with
  | nil => exact hnext
  | cons v rest ih =>
    obtain ⟨hv, hrest⟩ := List.forall_mem_cons.mp h
    exact hc.push hv (ih hrest)

theorem makeClosure : c.procedure Builtin.makeClosure := by
  refine hc.pop fun operand hoperand => ?_
  split
  · have hitems := hc.items hoperand
    exact hc.registerNew hitems (hc.executeAll hitems) fun name hname =>
      hc.emit (hc.push (hc.symbol hname) hc.done)
  · exact hc.fail (.closureOfValue hoperand)

theorem bindLocally : c.procedure Builtin.bindLocally := by
  refine hc.popBindings fun bindings body hbindings hbody => ?_
  split
  · refine hc.inChild hbindings (hc.execute hbody hc.done) fun results hresults => ?_
    exact hc.pushAll hc.done fun v hv => hresults v (List.mem_reverse.mp hv)
  · exact hc.fail (.notABinding hbody)
  · exact hc.fail (.notAPair hbody)

end IsClosed

/-! ## Arithmetic -/

namespace IsArithmetic

variable {c : Criterion} (hc : c.IsArithmetic) {name : String} (hname : c.name name)
include hc hname

theorem pairwise {next : List Value → Procedure}
    (h : ∀ items, (∀ v ∈ items, c.value v) → c.procedure (next items))
    {left right combined : List Value} (hleft : ∀ v ∈ left, c.value v)
    (hright : ∀ v ∈ right, c.value v) (hcombined : ∀ v ∈ combined, c.value v) :
    c.procedure (Operator.pairwise name next combined left right) := by
  have hdone : c.procedure (next combined.reverse) :=
    h _ fun v hv => hcombined v (List.mem_reverse.mp hv)
  induction left generalizing right combined with
  | nil => exact hdone
  | cons v left ih =>
    cases right with
    | nil => exact hdone
    | cons w right =>
      obtain ⟨hv, hleft⟩ := List.forall_mem_cons.mp hleft
      obtain ⟨hw, hright⟩ := List.forall_mem_cons.mp hright
      have hpair : c.value (.block [v, w]) :=
        hc.block (List.forall_mem_cons.mpr ⟨hv, List.forall_mem_singleton.mpr hw⟩)
      refine hc.push hpair (hc.execute (hc.symbol hname) (hc.pop fun result hresult => ?_))
      have hresults := List.forall_mem_cons.mpr ⟨hresult, hcombined⟩
      exact ih hleft hright hresults (h _ fun u hu => hresults u (List.mem_reverse.mp hu))

theorem combine (operation : Operation) {left right : Value} (hleft : c.value left)
    (hright : c.value right) {next : Value → Procedure}
    (h : ∀ v, c.value v → c.procedure (next v)) :
    c.procedure ((operation.operator name).combine left right next) := by
  unfold Operator.combine
  split
  · split
    · exact hc.fail (.lengthMismatch _ _)
    · rw [operation.name_operator]
      exact hc.pairwise hname (fun items hitems => h _ (hc.block hitems)) (hc.items hleft)
        (hc.items hright) fun v hv => absurd hv List.not_mem_nil
  · refine hc.context fun context hcontext => ?_
    rw [operation.numbers_operator]
    cases hresult : operation.ofNumbers context _ _ with
    | ok result => exact h _ (hc.number result)
    | error fault => exact hc.arithmetic hcontext hresult
  · rw [operation.symbols_operator]
    cases operation with
    | sum => exact h _ (hc.symbol (hc.join (hc.name hleft) (hc.name hright)))
    | _ => exact hc.fail .symbolOperands
  · exact hc.fail (.kindMismatch hleft hright)

theorem foldFrom (operation : Operation) {next : Value → Procedure}
    (h : ∀ v, c.value v → c.procedure (next v)) {first : Value} (hfirst : c.value first)
    {others : List Value} (hothers : ∀ v ∈ others, c.value v) :
    c.procedure ((operation.operator name).foldFrom next first others) := by
  induction others generalizing first with
  | nil => exact h first hfirst
  | cons v rest ih =>
    obtain ⟨hv, hrest⟩ := List.forall_mem_cons.mp hothers
    exact hc.combine hname operation hfirst hv fun result hresult => ih hresult hrest

theorem fold (operation : Operation) : c.procedure (operation.operator name).fold := by
  refine hc.pop fun operand hoperand => ?_
  split
  · rw [operation.name_operator]
    exact hc.fail (.foldOfNothing hname)
  · obtain ⟨hfirst, hothers⟩ := List.forall_mem_cons.mp (hc.items hoperand)
    exact hc.foldFrom hname operation (fun result hresult => hc.push hresult hc.done) hfirst hothers
  · rw [operation.name_operator]
    exact hc.fail (.foldOfValue hname hoperand)

end IsArithmetic

end Criterion

/-! ## New root environments -/

namespace Builtin

/-- The cells of a new root environment are three procedures, and the operators under their names.
-/
theorem exists_body_of_mem_cells {name : String} {cell : Cell} (h : (name, cell) ∈ cells) :
    ∃ body, cell = .external body ∧ (body = print ∨ body = makeClosure ∨ body = bindLocally ∨
      ∃ op ∈ operators, name = op.name ∧ body = op.fold) := by
  unfold cells at h
  rcases List.mem_append.mp h with h | h
  · simp only [List.mem_cons, List.not_mem_nil, or_false, Prod.mk.injEq] at h
    rcases h with ⟨-, rfl⟩ | ⟨-, rfl⟩ | ⟨-, rfl⟩
    · exact ⟨print, rfl, Or.inl rfl⟩
    · exact ⟨makeClosure, rfl, Or.inr (Or.inl rfl)⟩
    · exact ⟨bindLocally, rfl, Or.inr (Or.inr (Or.inl rfl))⟩
  · obtain ⟨op, hop, heq⟩ := List.mem_map.mp h
    obtain ⟨rfl, rfl⟩ := Prod.mk.inj heq
    exact ⟨op.fold, rfl, Or.inr (Or.inr (Or.inr ⟨op, hop, rfl, rfl⟩))⟩

/-- Under the name of an operator a new root environment has the operator of an operation. -/
theorem exists_operation_of_mem {op : Operator} (h : op ∈ operators) :
    ∃ operation : Operation, op.name ∈ operation.names ∧ op = operation.operator op.name := by
  simp only [operators, List.mem_cons, List.not_mem_nil, or_false] at h
  rcases h with rfl | rfl | rfl | rfl | rfl | rfl | rfl | rfl
  · exact ⟨.sum, by decide, rfl⟩
  · exact ⟨.sum, by decide, rfl⟩
  · exact ⟨.product, by decide, rfl⟩
  · exact ⟨.product, by decide, rfl⟩
  · exact ⟨.quotient, by decide, rfl⟩
  · exact ⟨.quotient, by decide, rfl⟩
  · exact ⟨.difference, by decide, rfl⟩
  · exact ⟨.difference, by decide, rfl⟩

end Builtin

/-- All builtin procedures meet a criterion that their operations pass on; printing is a case of its
own, as it looks at the stack without taking anything. -/
theorem Criterion.IsArithmetic.of_mem_cells {c : Criterion} (hc : c.IsArithmetic) {name : String}
    {body : Procedure} (h : (name, .external body) ∈ Builtin.cells) :
    body = Builtin.print ∨ c.procedure body := by
  obtain ⟨found, heq, hfound⟩ := Builtin.exists_body_of_mem_cells h
  obtain rfl := Cell.external.inj heq
  rcases hfound with rfl | rfl | rfl | ⟨op, hop, -, rfl⟩
  · exact Or.inl rfl
  · exact Or.inr hc.makeClosure
  · exact Or.inr hc.bindLocally
  · obtain ⟨operation, -, hoperator⟩ := Builtin.exists_operation_of_mem hop
    rw [hoperator]
    exact Or.inr (hc.fold (hc.operators op hop) operation)

end QuoteStack

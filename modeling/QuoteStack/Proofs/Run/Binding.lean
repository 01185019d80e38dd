import QuoteStack.Builtin
import QuoteStack.Proofs.Run.Cells
import QuoteStack.Proofs.Run.Depth

/-!
Local bindings. The procedure that binds locally takes pairs from the top of the stack as long as
there are any, opens a child that binds their names to their values, and dispatches the symbol below
them there. What the child is left with comes on top of what stood below the symbol. The main
statement is `dispatch_bindLocally`.
-/

namespace QuoteStack

/-- The pair of a value and a symbol that binds the symbol to the value. -/
def Value.binding (binding : String × Value) : Value :=
  .block [binding.2, .symbol binding.1]

/-- Why a value that is no pair of a value and a symbol binds nothing. -/
def Value.bindingFault (v : Value) : Fault :=
  match v with
  | .block [_, _] => .notABinding v
  | _ => .notAPair v

theorem Value.code_bindingFault (v : Value) : v.bindingFault.code? = some .letError := by
  unfold bindingFault
  split <;> rfl

/-- All pairs of a value and a symbol at the top of a stack, and what is below them. -/
structure TopBindings (stack : List Value) (bindings : List (String × Value)) (below : List Value) :
    Prop where
  stack_eq : stack = bindings.map Value.binding ++ below
  /-- What is below the pairs is no such pair. -/
  all_taken : ∀ binding, below.head? ≠ some (Value.binding binding)

theorem exists_topBindings (stack : List Value) :
    ∃ bindings below, TopBindings stack bindings below := by
  induction stack with
  | nil => exact ⟨[], [], rfl, fun binding h => nomatch h⟩
  | cons v rest ih =>
    by_cases hv : ∃ binding, v = Value.binding binding
    · obtain ⟨binding, rfl⟩ := hv
      obtain ⟨bindings, below, rfl, htaken⟩ := ih
      exact ⟨binding :: bindings, below, rfl, htaken⟩
    · exact ⟨[], v :: rest, rfl, fun binding h => hv ⟨binding, Option.some.inj h⟩⟩

namespace Machine

/-- The pairs at the top of a stack are all taken, the deepest last. -/
theorem spanBindings_of_topBindings {stack below : List Value} {bindings : List (String × Value)}
    (h : TopBindings stack bindings below) (found : List (String × Value)) :
    spanBindings found stack = (bindings.reverse ++ found, below) := by
  obtain ⟨rfl, htaken⟩ := h
  induction bindings generalizing found with
  | nil =>
    rw [List.map_nil, List.nil_append]
    unfold spanBindings
    split
    · next v name rest => exact absurd rfl (htaken (name, v))
    · rfl
  | cons binding rest ih =>
    have hrest := ih (binding :: found)
    rw [List.reverse_cons, List.append_assoc]
    exact hrest

/-- Values that are pushed in order end up on the stack in reverse order. -/
theorem run_pushAll (D : Dispatch) (next : Procedure) (values : List Value) (m : Machine) :
    (Procedure.pushAll next values).run D m =
      next.run D { m with stack := values.reverse ++ m.stack } := by
  induction values generalizing m with
  | nil => rfl
  | cons v rest ih =>
    rw [Procedure.pushAll, Procedure.run, ih, List.reverse_cons, List.append_assoc]
    rfl

/-- Executing a symbol in a child is dispatching it there. -/
theorem run_inChild_symbol {m child : Machine} {bindings : List (String × Value)}
    (hchild : m.child bindings = child) (body : String) (next : List Value → Procedure) :
    (Procedure.inChild bindings (.execute (.symbol body) .done) next).run dispatcher m =
      let inner := child.dispatch body
      match inner.fault? with
      | none => (next inner.machine.stack).run dispatcher { m with root := inner.machine.root }
      | some fault => ⟨some fault, { m with root := inner.machine.root }⟩ := by
  rw [Procedure.run, hchild, Procedure.run, Value.execute, dispatcher]
  obtain ⟨fault?, n⟩ := child.dispatch body
  cases fault? <;> rfl

/-- The child in which a symbol is dispatched with local bindings. -/
def localChild (m : Machine) (name : String) (bindings : List (String × Value)) : Machine :=
  (m.enter.emit (.called name)).child bindings.reverse

/-- What remains of a dispatch with local bindings, with what is left on the stack. -/
def afterLocal (m child : Machine) (stack : List Value) : Machine :=
  { m with stack, root := child.leave.root }

section
variable {name : String} {m : Machine} {bindings : List (String × Value)} {below : List Value}

/-- Taking the pairs off the stack, the procedure comes to the value below them. -/
theorem dispatch_topBindings (hfind : m.find? name = some (.external Builtin.bindLocally))
    (hless : (m.root.depth : Int) < m.root.limits.callLimit)
    (htop : TopBindings m.stack bindings below) :
    m.dispatch name =
      match below with
      | .symbol body :: rest =>
        let inner := (m.localChild name bindings).dispatch body
        match inner.fault? with
        | none => ⟨none, m.afterLocal inner.machine (inner.machine.stack ++ rest)⟩
        | some fault => ⟨some fault.wrap, m.afterLocal inner.machine rest⟩
      | v :: rest => ⟨some (.external v.bindingFault), { m.emit (.called name) with stack := rest }⟩
      | [] => ⟨some (.external .stackUnderflow), { m.emit (.called name) with stack := [] }⟩ := by
  have hspan : spanBindings [] (m.enter.emit (.called name)).stack =
      (bindings.reverse ++ [], below) :=
    spanBindings_of_topBindings htop []
  rw [List.append_nil] at hspan
  rw [dispatch_of_room hfind hless, Cell.invoke, Builtin.bindLocally, Procedure.run, hspan]
  rcases below with _ | ⟨n | body | items, rest⟩
  · rfl
  · rfl
  · -- the child does nothing but the one dispatch
    have hchild : ({ m.enter.emit (.called name) with stack := rest } : Machine).child
        bindings.reverse = m.localChild name bindings := rfl
    dsimp only
    rw [run_inChild_symbol hchild]
    obtain ⟨fault?, child⟩ := (m.localChild name bindings).dispatch body
    cases fault? with
    | none =>
      dsimp only
      rw [run_pushAll, List.reverse_reverse]
      rfl
    | some fault => rfl
  · -- a block is refused by its length, and one of two items by what its second item is
    rcases items with _ | ⟨v, _ | ⟨w, _ | ⟨u, more⟩⟩⟩ <;> rfl

end

/-- What a fault becomes outside of an external procedure is decided by its code. -/
theorem wrap_eq_ite (fault : Fault) :
    fault.wrap =
      if fault.code? = some .externalError ∨ fault.code? = some .recursionLimit then fault
      else .external fault := by
  cases fault <;> rfl

/-- Where a name means the procedure that binds locally, dispatching it below the limit takes all
pairs of a value and a symbol from the top of the stack, and the value below them. If that is a
symbol, it is dispatched in a child with an empty stack, in which the symbols of the pairs are bound
to their values, the deepest pair counting for equal symbols, and all other names are found around
the child. What the child is left with then comes on top of the rest of the stack, in the same order.
If it fails, the rest of the stack remains, and the fault is one that has been wrapped, or the limit,
or is wrapped now. If the value is no symbol, it is refused, and the rest of the stack remains. If
there is none, the stack is empty. -/
theorem dispatch_bindLocally (m : Machine) (name : String)
    (hfind : m.find? name = some (.external Builtin.bindLocally))
    (hless : (m.root.depth : Int) < m.root.limits.callLimit) :
    (∃ bindings below, TopBindings m.stack bindings below) ∧
    ∀ bindings below, TopBindings m.stack bindings below →
      match below with
      | .symbol body :: rest =>
        let child := m.localChild name bindings
        let inner := child.dispatch body
        child.stack = [] ∧
          (∀ other, child.scope.own.find? other =
            (bindings.reverse.lookup other).map fun v => .values [v]) ∧
          (∀ other, child.find? other = (child.scope.own.find? other).or (m.find? other)) ∧
          match inner.fault? with
          | none =>
            m.dispatch name = ⟨none, m.afterLocal inner.machine (inner.machine.stack ++ rest)⟩
          | some fault =>
            m.dispatch name =
              ⟨some (if fault.code? = some .externalError ∨ fault.code? = some .recursionLimit
                then fault else .external fault), m.afterLocal inner.machine rest⟩
      | v :: rest =>
        v.bindingFault.code? = some .letError ∧
          m.dispatch name =
            ⟨some (.external v.bindingFault), { m.emit (.called name) with stack := rest }⟩
      | [] =>
        m.dispatch name =
          ⟨some (.external .stackUnderflow), { m.emit (.called name) with stack := [] }⟩ := by
  refine ⟨exists_topBindings m.stack, fun bindings below htop => ?_⟩
  have hdispatch := dispatch_topBindings hfind hless htop
  rcases below with _ | ⟨n | body | items, rest⟩
  · exact hdispatch
  · exact ⟨Value.code_bindingFault _, hdispatch⟩
  · dsimp only at hdispatch ⊢
    have hown : ∀ other, (m.localChild name bindings).scope.own.find? other =
        (bindings.reverse.lookup other).map fun v => .values [v] :=
      fun other => lookup_bindings bindings.reverse other
    refine ⟨rfl, hown, fun other => ?_, ?_⟩
    · rw [hown]
      exact find?_child (m.enter.emit (.called name)) bindings.reverse other
    · rw [hdispatch]
      cases ((m.localChild name bindings).dispatch body).fault? with
      | none => rfl
      | some fault =>
        dsimp only
        rw [wrap_eq_ite]
  · exact ⟨Value.code_bindingFault _, hdispatch⟩

/-- Of two pairs with one symbol the deeper one counts. -/
theorem dispatch_bindLocally_deepest :
    let number (n : Nat) : Value := .number (.ofNat n)
    let m : Machine := { Machine.new {} with
      stack := [.block [number 1, .symbol "aa"], .block [number 2, .symbol "aa"], .symbol "aa",
        number 5] }
    m.find? "let" = some (.external Builtin.bindLocally) ∧
      (m.root.depth : Int) < m.root.limits.callLimit ∧
      TopBindings m.stack [("aa", number 1), ("aa", number 2)] [.symbol "aa", number 5] ∧
      (m.dispatch "let").fault? = none ∧
      (m.dispatch "let").machine.stack = [.block [number 2], number 5] := by
  intro number m
  have hfind : m.find? "let" = some (.external Builtin.bindLocally) := rfl
  have hless : (m.root.depth : Int) < m.root.limits.callLimit := by decide
  have htop : TopBindings m.stack [("aa", number 1), ("aa", number 2)] [.symbol "aa", number 5] :=
    ⟨rfl, fun binding h => nomatch h⟩
  have hbound : (m.localChild "let" [("aa", number 1), ("aa", number 2)]).find? "aa" =
      some (.values [number 2]) := rfl
  have hroom : (m.enter.root.depth : Int) < m.root.limits.callLimit := by decide
  clear_value m
  obtain ⟨-, -, -, hdispatch⟩ := (dispatch_bindLocally m "let" hfind hless).2 _ _ htop
  rw [dispatch_of_room hbound hroom] at hdispatch
  refine ⟨hfind, hless, htop, ?_⟩
  rw [hdispatch]
  exact ⟨rfl, rfl⟩

end Machine

end QuoteStack

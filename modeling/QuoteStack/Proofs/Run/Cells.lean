import QuoteStack.Machine.Source

/-!
What names are bound to. When a name is bound or a child is opened, the other names keep their cells,
so a scope binds names only to cells that they may be bound to as long as no other cell is bound. The
bindings of a child come from pairs at the top of a stack.
-/

namespace QuoteStack

namespace Scope

/-- Names are found bound only to cells that they may be bound to. -/
def Finds (c : String → Cell → Prop) (scope : Scope) : Prop :=
  ∀ name cell, scope.find? name = some cell → c name cell

/-- Names are bound only to cells that they may be bound to, here and around. -/
structure Binds (c : String → Cell → Prop) (scope : Scope) : Prop where
  found : scope.Finds c
  own : ∀ name cell, scope.own.find? name = some cell → c name cell

variable {c : String → Cell → Prop} {scope : Scope}

theorem Finds.set (h : scope.Finds c) {name : String} {cell : Cell} (hcell : c name cell) :
    (scope.set name cell).Finds c := by
  intro other found hfound
  rw [find?_set] at hfound
  split at hfound
  · next heq => exact heq ▸ Option.some.inj hfound ▸ hcell
  · exact h other found hfound

theorem Finds.enter (h : scope.Finds c) {registers : Registers}
    (hregisters : ∀ name cell, registers.find? name = some cell → c name cell) :
    (scope.enter registers).Finds c := by
  intro name cell hcell
  rw [find?_enter] at hcell
  cases hown : registers.find? name with
  | none =>
    rw [hown] at hcell
    exact h name cell hcell
  | some own =>
    rw [hown] at hcell
    exact Option.some.inj hcell ▸ hregisters name own hown

theorem Binds.set (h : scope.Binds c) {name : String} {cell : Cell} (hcell : c name cell) :
    (scope.set name cell).Binds c := by
  refine ⟨h.found.set hcell, fun other found hfound => ?_⟩
  replace hfound : (scope.own.set name cell).find? other = some found := hfound
  rw [Registers.find?_set] at hfound
  split at hfound
  · next heq => exact heq ▸ Option.some.inj hfound ▸ hcell
  · exact h.own other found hfound

theorem Binds.setAll (h : scope.Binds c) {cells : List (String × Cell)}
    (hcells : ∀ name cell, (name, cell) ∈ cells → c name cell) : (scope.setAll cells).Binds c := by
  induction cells generalizing scope with
  | nil => exact h
  | cons binding rest ih =>
    have hfirst := h.set (hcells binding.1 binding.2 List.mem_cons_self)
    exact ih hfirst fun name cell hmem => hcells name cell (List.mem_cons_of_mem _ hmem)

theorem binds_empty : (∅ : Scope).Binds c := by
  refine ⟨fun name cell hcell => ?_, fun name cell hcell => nomatch hcell⟩
  rw [find?_empty] at hcell
  cases hcell

end Scope

namespace Machine

variable {c : String → Cell → Prop} {m : Machine}

theorem find?_set (m : Machine) (name : String) (cell : Cell) (other : String) :
    (m.set name cell).find? other = if other = name then some cell else m.find? other :=
  Scope.find?_set m.scope name cell other

/-- What is looked up stands in the list. -/
theorem mem_of_lookup {α : Type} {bindings : List (String × α)} {name : String} {a : α}
    (h : bindings.lookup name = some a) : (name, a) ∈ bindings := by
  obtain ⟨before, after, hsplit, -⟩ := List.lookup_eq_some_iff.mp h
  rw [hsplit]
  exact List.mem_append_right _ List.mem_cons_self

/-- The registers of a child bind each name to a stored block of one value. -/
theorem lookup_bindings (bindings : List (String × Value)) (name : String) :
    (⟨bindings.map fun (name, v) => (name, .values [v])⟩ : Registers).find? name =
      (bindings.lookup name).map fun v => .values [v] := by
  unfold Registers.find?
  induction bindings with
  | nil => rfl
  | cons binding rest ih =>
    obtain ⟨other, v⟩ := binding
    rw [List.map_cons, List.lookup_cons, List.lookup_cons]
    cases name == other with
    | true => rfl
    | false => exact ih

theorem find?_child (m : Machine) (bindings : List (String × Value)) (name : String) :
    (m.child bindings).find? name =
      ((bindings.lookup name).map fun v => .values [v]).or (m.find? name) := by
  unfold find? child
  rw [Scope.find?_enter, lookup_bindings]

/-- The registers of a child bind nothing but the values that they are given. -/
theorem bindings_bind {bindings : List (String × Value)}
    (hvalues : ∀ name v, (name, v) ∈ bindings → c name (.values [v])) (name : String) (cell : Cell)
    (hcell : (⟨bindings.map fun (name, v) => (name, .values [v])⟩ : Registers).find? name =
      some cell) : c name cell := by
  rw [lookup_bindings] at hcell
  obtain ⟨v, hlookup, rfl⟩ := Option.map_eq_some_iff.mp hcell
  exact hvalues name v (mem_of_lookup hlookup)

theorem finds_child (h : m.scope.Finds c) {bindings : List (String × Value)}
    (hvalues : ∀ name v, (name, v) ∈ bindings → c name (.values [v])) :
    (m.child bindings).scope.Finds c :=
  Scope.Finds.enter h (bindings_bind hvalues)

theorem binds_child (h : m.scope.Binds c) {bindings : List (String × Value)}
    (hvalues : ∀ name v, (name, v) ∈ bindings → c name (.values [v])) :
    (m.child bindings).scope.Binds c :=
  ⟨finds_child h.found hvalues, bindings_bind hvalues⟩

/-- A new root environment binds the given cells only. -/
theorem binds_ofCells (limits : Limits) {cells : List (String × Cell)}
    (hcells : ∀ name cell, (name, cell) ∈ cells → c name cell) :
    (ofCells limits cells).scope.Binds c :=
  Scope.binds_empty.setAll hcells

/-! ## Bindings taken from a stack -/

/-- Bindings are taken from the top of the stack, up to a value that is none. -/
theorem spanBindings_append {found bindings : List (String × Value)} {stack rest : List Value}
    {v : Value} (h : spanBindings found stack = (bindings, v :: rest)) (below : List Value) :
    spanBindings found (stack ++ below) = (bindings, v :: rest ++ below) := by
  fun_induction spanBindings found stack with
  | case1 found w name stack ih => exact ih h
  | case2 found stack hnone =>
    obtain ⟨rfl, rfl⟩ := Prod.mk.inj h
    rw [List.cons_append]
    unfold spanBindings
    split
    · next w name others heq =>
      injection heq with heq _
      exact absurd (congrArg (· :: rest) heq) (hnone w name rest)
    · rfl

/-- Each binding comes from a pair on the stack, and what remains is of the stack. -/
theorem mem_of_spanBindings {found bindings : List (String × Value)} {stack rest : List Value}
    (h : spanBindings found stack = (bindings, rest)) :
    (∀ name v, (name, v) ∈ bindings → (name, v) ∈ found ∨ .block [v, .symbol name] ∈ stack) ∧
      ∀ v ∈ rest, v ∈ stack := by
  fun_induction spanBindings found stack with
  | case1 found w other stack ih =>
    obtain ⟨hbindings, hrest⟩ := ih h
    refine ⟨fun name v hmem => ?_, fun v hv => List.mem_cons_of_mem _ (hrest v hv)⟩
    rcases hbindings name v hmem with hfound | hstack
    · rcases List.mem_cons.mp hfound with heq | hfound
      · obtain ⟨rfl, rfl⟩ := Prod.mk.inj heq
        exact Or.inr List.mem_cons_self
      · exact Or.inl hfound
    · exact Or.inr (List.mem_cons_of_mem _ hstack)
  | case2 found stack hnone =>
    obtain ⟨rfl, rfl⟩ := Prod.mk.inj h
    exact ⟨fun name v hmem => Or.inl hmem, fun v hv => hv⟩

end Machine

end QuoteStack

import QuoteStack.Procedure

/-!
Registers: what the names of an environment are bound to.
-/

namespace QuoteStack

/-- The bindings of an environment, the latest first. -/
structure Registers where
  bindings : List (String × Cell)

namespace Registers

instance : EmptyCollection Registers := ⟨⟨[]⟩⟩

/-- The cell that a name is bound to. -/
def find? (registers : Registers) (name : String) : Option Cell :=
  registers.bindings.lookup name

/-- Binds a name, in place of an earlier binding. -/
def set (registers : Registers) (name : String) (cell : Cell) : Registers :=
  ⟨(name, cell) :: registers.bindings⟩

theorem find?_empty (name : String) : (∅ : Registers).find? name = none :=
  rfl

theorem find?_set (registers : Registers) (name : String) (cell : Cell) (other : String) :
    (registers.set name cell).find? other =
      if other = name then some cell else registers.find? other := by
  by_cases h : other = name
  · simp [find?, set, h]
  · simp [find?, set, h, List.lookup_cons, beq_false_of_ne h]

end Registers

end QuoteStack

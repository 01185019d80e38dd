import Std.Data.TreeMap.Lemmas
import QuoteStack.Registers

/-!
Scopes: the bindings that a program finds. A name that the environment of the program does not bind
is found in the nearest environment around it. A scope keeps what is found under each name, so that
finding it takes no longer the more environments there are around. The main statements: entering an
environment puts its bindings before those around it, and binding a name changes that name only.
-/

namespace QuoteStack

/-- What a program finds under names, and which of it is bound in its own environment. -/
structure Scope where
  own : Registers
  /-- What is found under each name, here or around. -/
  visible : Std.TreeMap String Cell

namespace Scope

instance : EmptyCollection Scope := ⟨⟨∅, ∅⟩⟩

/-- The cell that a name is bound to here or in the nearest environment around. -/
def find? (scope : Scope) (name : String) : Option Cell :=
  scope.visible[name]?

/-- Binds a name in the environment of the scope. -/
def set (scope : Scope) (name : String) (cell : Cell) : Scope :=
  ⟨scope.own.set name cell, scope.visible.insert name cell⟩

/-- Binds names in order. -/
def setAll (scope : Scope) (cells : List (String × Cell)) : Scope :=
  cells.foldl (fun scope (name, cell) => scope.set name cell) scope

/-- The scope of an environment inside of another. -/
def enter (scope : Scope) (registers : Registers) : Scope :=
  ⟨registers,
    registers.bindings.foldr (fun (name, cell) visible => visible.insert name cell) scope.visible⟩

/-- The scope of an environment with other environments around it, the nearest first. -/
def ofChain (chain : List Registers) : Scope :=
  chain.foldr (fun registers scope => scope.enter registers) ∅

theorem find?_empty (name : String) : (∅ : Scope).find? name = none :=
  Std.TreeMap.getElem?_emptyc

theorem find?_set (scope : Scope) (name : String) (cell : Cell) (other : String) :
    (scope.set name cell).find? other = if other = name then some cell else scope.find? other := by
  by_cases h : other = name
  · simp [find?, set, h]
  · simp [find?, set, Std.TreeMap.getElem?_insert, h, Ne.symm h]

theorem find?_enter (scope : Scope) (registers : Registers) (name : String) :
    (scope.enter registers).find? name = (registers.find? name).or (scope.find? name) := by
  obtain ⟨bindings⟩ := registers
  induction bindings with
  | nil => rfl
  | cons binding rest ih =>
    have last : (⟨binding :: rest⟩ : Registers) =
        (⟨rest⟩ : Registers).set binding.1 binding.2 := rfl
    have found : (scope.enter ⟨binding :: rest⟩).find? name =
        ((scope.enter ⟨rest⟩).set binding.1 binding.2).find? name := rfl
    rw [found, last, find?_set, Registers.find?_set, ih]
    split <;> rfl

/-- A name is found in the first of the environments that binds it. -/
theorem find?_ofChain (chain : List Registers) (name : String) :
    (ofChain chain).find? name = chain.findSome? fun registers => registers.find? name := by
  induction chain with
  | nil => exact find?_empty name
  | cons registers rest ih =>
    have h : ofChain (registers :: rest) = (ofChain rest).enter registers := rfl
    rw [h, find?_enter, ih, List.findSome?_cons]
    cases registers.find? name <;> rfl

end Scope

end QuoteStack

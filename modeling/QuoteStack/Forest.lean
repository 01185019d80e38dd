import QuoteStack.Machine.Source

/-!
Environments that live side by side. Environments of one root form a tree: each has a stack and
registers of its own and finds further names in the environments around it, and all share the root.
A program runs on the view of one environment; only that environment and the shared root change.
-/

namespace QuoteStack

/-- An environment of a tree. -/
structure Environment where
  /-- The values on the stack, top first. -/
  stack : List Value
  registers : Registers
  /-- The places in the tree of the environments around this one, the nearest first. -/
  ancestors : List Nat

/-- A root environment, at place 0, and its descendants. -/
structure Tree where
  root : Root
  environments : Array Environment

namespace Tree

/-- A tree of a root environment only. -/
def ofMachine (m : Machine) : Tree :=
  ⟨m.root, #[⟨m.stack, m.scope.own, []⟩]⟩

/-- What a program sees that runs in the environment at a place. -/
def view? (tree : Tree) (place : Nat) : Option Machine :=
  (tree.environments[place]?).map fun environment =>
    { stack := environment.stack
      scope := .ofChain <| environment.registers ::
        environment.ancestors.filterMap fun ancestor =>
          (tree.environments[ancestor]?).map (·.registers)
      root := tree.root }

/-- Puts back what a program has left in the environment at a place. -/
def update (tree : Tree) (place : Nat) (m : Machine) : Tree :=
  { root := m.root
    environments := tree.environments.modify place fun environment =>
      { environment with stack := m.stack, registers := m.scope.own } }

/-- Adds an empty child of the environment at a place, as the last environment. -/
def addChild (tree : Tree) (place : Nat) : Tree :=
  match tree.environments[place]? with
  | some parent =>
    { tree with environments := tree.environments.push ⟨[], ∅, place :: parent.ancestors⟩ }
  | none => tree

/-- The place of the environment directly around the one at a place. -/
def parent? (tree : Tree) (place : Nat) : Option Nat :=
  tree.environments[place]? >>= fun environment => environment.ancestors.head?

end Tree

/-- Where an environment is: its tree, and its place there. -/
structure Place where
  tree : Nat
  environment : Nat
  deriving DecidableEq

/-- Trees side by side, in the order in which they were made. -/
structure Forest where
  trees : Array Tree

namespace Forest

/-- What a program sees that runs in the environment at a place. -/
def view? (forest : Forest) (place : Place) : Option Machine :=
  forest.trees[place.tree]? >>= fun tree => tree.view? place.environment

/-- Puts back what a program has left in the environment at a place. -/
def update (forest : Forest) (place : Place) (m : Machine) : Forest :=
  ⟨forest.trees.modify place.tree fun tree => tree.update place.environment m⟩

/-- Adds a child of the environment at a place, and tells its place. -/
def addChild (forest : Forest) (place : Place) : Forest × Place :=
  let size := (forest.trees[place.tree]?).map (·.environments.size)
  (⟨forest.trees.modify place.tree fun tree => tree.addChild place.environment⟩,
    ⟨place.tree, size.getD 0⟩)

/-- Adds a tree of a root environment only, and tells the place of the root. -/
def addRoot (forest : Forest) (m : Machine) : Forest × Place :=
  (⟨forest.trees.push (.ofMachine m)⟩, ⟨forest.trees.size, 0⟩)

/-- The place of the environment directly around the one at a place. -/
def parent? (forest : Forest) (place : Place) : Option Place :=
  (forest.trees[place.tree]? >>= fun tree => tree.parent? place.environment).map (⟨place.tree, ·⟩)

end Forest

end QuoteStack

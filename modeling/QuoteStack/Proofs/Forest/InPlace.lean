import QuoteStack.Proofs.Forest.Store

/-!
Running programs in place. What runs in an environment writes to the store that it is in. The main
statement is `Tree.refines_execute`: in a tree where ancestors come before their descendants this is
running the program on what is seen from the place, and all other environments stay as they are.
-/

namespace QuoteStack

/-- How an operation in place ends: with a fault or without, and with the tree it leaves. -/
structure TreeOutcome where
  fault? : Option Fault
  tree : Tree

namespace TreeOutcome

/-- Goes on if there was no fault. -/
def andThen (outcome : TreeOutcome) (next : Tree → TreeOutcome) : TreeOutcome :=
  match outcome with
  | ⟨none, tree⟩ => next tree
  | failed => failed

/-- Wraps the fault, if there is one. -/
def wrap (outcome : TreeOutcome) : TreeOutcome :=
  { outcome with fault? := outcome.fault?.map Fault.wrap }

/-- Applies a function to the root. -/
def onRoot (outcome : TreeOutcome) (f : Root → Root) : TreeOutcome :=
  { outcome with tree := outcome.tree.onRoot f }

end TreeOutcome

/-- What a dispatch at a place does, when it is left open how deep it may nest. -/
abbrev DispatchAt := String → Nat → Tree → TreeOutcome

/-! ## Running in place -/

/-- Executes a value at a place. -/
def Value.executeAt (dispatch : DispatchAt) (v : Value) (place : Nat) (tree : Tree) : TreeOutcome :=
  match v with
  | .number n => ⟨none, tree.pushAt place (.block [.number n])⟩
  | .block items => ⟨none, tree.pushAt place (.block items)⟩
  | .symbol name => dispatch name place tree

/-- Executes an instruction at a place. -/
def Instruction.executeAt (dispatch : DispatchAt) (instruction : Instruction) (place : Nat)
    (tree : Tree) : TreeOutcome :=
  match instruction with
  | .value v => v.executeAt dispatch place tree
  | .foreign kind => ⟨some (.notExecutable kind), tree⟩

/-- Executes instructions at a place in order, up to the first fault. -/
def executeEachAt (dispatch : DispatchAt) (place : Nat) : List Instruction → Tree → TreeOutcome
  | [], tree => ⟨none, tree⟩
  | instruction :: rest, tree =>
    (instruction.executeAt dispatch place tree).andThen (executeEachAt dispatch place rest)

/-- Runs an external procedure at a place. A child that it opens stays in the tree. -/
def Procedure.runAt (dispatch : DispatchAt) : Procedure → Nat → Tree → TreeOutcome
  | .done, _, tree => ⟨none, tree⟩
  | .fail fault, _, tree => ⟨some fault, tree⟩
  | .push v next, place, tree => next.runAt dispatch place (tree.pushAt place v)
  | .pop next, place, tree =>
    match tree.stackAt place with
    | [] => ⟨some .stackUnderflow, tree⟩
    | v :: rest => (next v).runAt dispatch place (tree.restackAt place rest)
  | .peek next, place, tree => (next (tree.stackAt place).head?).runAt dispatch place tree
  | .clear next, place, tree => next.runAt dispatch place (tree.restackAt place [])
  | .height next, place, tree => (next (tree.stackAt place).length).runAt dispatch place tree
  | .depth next, place, tree => (next tree.root.depth).runAt dispatch place tree
  | .context next, place, tree => (next tree.root.limits.toContext).runAt dispatch place tree
  | .popBindings next, place, tree =>
    match Machine.spanBindings [] (tree.stackAt place) with
    | (_, []) => ⟨some .stackUnderflow, tree.restackAt place []⟩
    | (bindings, v :: rest) => (next bindings v).runAt dispatch place (tree.restackAt place rest)
  | .mint next, place, tree =>
    (next (Machine.closureName tree.root.minted)).runAt dispatch place
      (tree.onRoot fun root => { root with minted := root.minted + 1 })
  | .register name cell next, place, tree =>
    next.runAt dispatch place (tree.bindAt place name cell)
  | .execute v next, place, tree =>
    (v.executeAt dispatch place tree).andThen (next.runAt dispatch place)
  | .inChild bindings body next, place, tree =>
    let child := tree.environments.size
    (body.runAt dispatch child (tree.openAt place bindings)).andThen fun tree =>
      (next (tree.stackAt child)).runAt dispatch place tree
  | .emit event next, place, tree => next.runAt dispatch place (tree.emit event)

/-- Runs, calls or pushes at a place a cell that was found under a name. -/
def Cell.invokeAt (dispatch : DispatchAt) (name : String) (cell : Cell) (place : Nat)
    (tree : Tree) : TreeOutcome :=
  match cell with
  | .program instructions => executeEachAt dispatch place instructions (tree.emit (.entered name))
  | .values items => ⟨none, tree.pushAt place (.block items)⟩
  | .external body => (body.runAt dispatch place (tree.emit (.called name))).wrap
  | .foreign content => ⟨some (.notACell name content), tree⟩

namespace Tree

/-- Dispatches a name at a place where `room` dispatches may be nested, this one included. -/
def dispatchWithin : Nat → DispatchAt
  | 0, name, place, tree =>
    match tree.findAt? place name with
    | none => ⟨some (.undefinedSymbol name), tree⟩
    | some _ => ⟨some tree.root.limits.depthFault, tree⟩
  | room + 1, name, place, tree =>
    match tree.findAt? place name with
    | none => ⟨some (.undefinedSymbol name), tree⟩
    | some cell =>
      let entered := tree.onRoot fun root => { root with depth := root.depth + 1 }
      (cell.invokeAt (dispatchWithin room) name place entered).onRoot fun root =>
        { root with depth := root.depth - 1 }

/-- Executes a program in place. -/
def execute (tree : Tree) (place : Nat) (program : List Instruction) : TreeOutcome :=
  executeEachAt (dispatchWithin tree.room) place program tree

end Tree

/-! ## Running in place and running on what is seen -/

open QuoteStack.Tree

/-- An outcome in place, from a tree on, is an outcome on what is seen from the place. -/
structure Refines (place : Nat) (tree : Tree) (o : TreeOutcome) (o' : Outcome) : Prop where
  fault_eq : o.fault? = o'.fault?
  visible : o.tree.Shows place o'.machine
  kept : Extends place tree o.tree

namespace Refines

variable {place : Nat} {tree tree' : Tree} {m : Machine} {o : TreeOutcome} {o' : Outcome}

theorem of_eq {fault? : Option Fault} (hkept : Extends place tree tree') (h : tree'.Shows place m) :
    Refines place tree ⟨fault?, tree'⟩ ⟨fault?, m⟩ :=
  ⟨rfl, h, hkept⟩

/-- What has been changed before is still no more than may be changed. -/
theorem of_extends (hkept : Extends place tree tree') (h : Refines place tree' o o') :
    Refines place tree o o' :=
  ⟨h.fault_eq, h.visible, hkept.trans h.kept⟩

theorem andThen {next : Tree → TreeOutcome} {next' : Machine → Outcome}
    (h : Refines place tree o o')
    (hnext : ∀ tree' m, Extends place tree tree' → tree'.Shows place m →
      Refines place tree' (next tree') (next' m)) :
    Refines place tree (o.andThen next) (o'.andThen next') := by
  obtain ⟨fault?, after⟩ := o
  obtain ⟨fault?', m⟩ := o'
  obtain ⟨hfault, hvisible, hkept⟩ := h
  simp only at hfault hvisible hkept
  subst hfault
  cases fault? with
  | none => exact (hnext after m hkept hvisible).of_extends hkept
  | some fault => exact .of_eq hkept hvisible

theorem wrap (h : Refines place tree o o') : Refines place tree o.wrap o'.wrap where
  fault_eq := congrArg (Option.map Fault.wrap) h.fault_eq
  visible := h.visible
  kept := h.kept

theorem onRoot (h : Refines place tree o o') (f : Root → Root) :
    Refines place tree (o.onRoot f) (o'.mapMachine fun m => { m with root := f m.root }) where
  fault_eq := h.fault_eq
  visible := h.visible.onRoot f
  kept := h.kept.trans (.onRoot _ place f)

end Refines

/-- Dispatches in place are dispatches on what is seen. -/
def DispatchesRefine (D : DispatchAt) (D' : Dispatch) : Prop :=
  ∀ name place (tree : Tree) m, tree.IsOrdered → tree.Shows place m →
    Refines place tree (D name place tree) (D' name m)

section
variable {D : DispatchAt} {D' : Dispatch} {place : Nat} {tree : Tree} {m : Machine}

theorem refines_value (hD : DispatchesRefine D D') (v : Value) (hordered : tree.IsOrdered)
    (h : tree.Shows place m) :
    Refines place tree (v.executeAt D place tree) (v.execute D' m) := by
  cases v with
  | number n => exact .of_eq (.restackAt tree place _) (h.push _)
  | block items => exact .of_eq (.restackAt tree place _) (h.push _)
  | symbol name => exact hD name place tree m hordered h

theorem refines_each (hD : DispatchesRefine D D') (program : List Instruction)
    (hordered : tree.IsOrdered) (h : tree.Shows place m) :
    Refines place tree (executeEachAt D place program tree) (executeEach D' program m) := by
  induction program generalizing tree m with
  | nil => exact .of_eq (.refl place tree) h
  | cons instruction rest ih =>
    refine Refines.andThen ?_ fun tree' m hkept h => ih (hkept.ordered hordered) h
    cases instruction with
    | value v => exact refines_value hD v hordered h
    | foreign kind => exact .of_eq (.refl place tree) h

theorem refines_run (hD : DispatchesRefine D D') (body : Procedure) (hordered : tree.IsOrdered)
    (h : tree.Shows place m) :
    Refines place tree (body.runAt D place tree) (body.run D' m) := by
  induction body generalizing place tree m with
  | done => exact .of_eq (.refl place tree) h
  | fail fault => exact .of_eq (.refl place tree) h
  | push v next ih =>
    have hkept := Extends.restackAt tree place (v :: tree.stackAt place)
    exact (ih (hkept.ordered hordered) (h.push v)).of_extends hkept
  | pop next ih =>
    simp only [Procedure.runAt, Procedure.run, h.stackAt_eq]
    cases m.stack with
    | nil => exact .of_eq (.refl place tree) h
    | cons v rest =>
      have hkept := Extends.restackAt tree place rest
      exact (ih v (hkept.ordered hordered) (h.restack rest)).of_extends hkept
  | peek next ih =>
    simp only [Procedure.runAt, Procedure.run, h.stackAt_eq]
    exact ih _ hordered h
  | clear next ih =>
    have hkept := Extends.restackAt tree place []
    exact (ih (hkept.ordered hordered) (h.restack [])).of_extends hkept
  | height next ih =>
    simp only [Procedure.runAt, Procedure.run, h.stackAt_eq]
    exact ih _ hordered h
  | depth next ih =>
    simp only [Procedure.runAt, Procedure.run, h.root]
    exact ih _ hordered h
  | context next ih =>
    simp only [Procedure.runAt, Procedure.run, h.root]
    exact ih _ hordered h
  | popBindings next ih =>
    simp only [Procedure.runAt, Procedure.run, h.stackAt_eq]
    generalize Machine.spanBindings [] m.stack = split
    obtain ⟨bindings, rest⟩ := split
    cases rest with
    | nil => exact .of_eq (.restackAt tree place []) (h.restack [])
    | cons v rest =>
      have hkept := Extends.restackAt tree place rest
      exact (ih bindings v (hkept.ordered hordered) (h.restack rest)).of_extends hkept
  | mint next ih =>
    simp only [Procedure.runAt, Procedure.run, h.root]
    exact (ih _ (hordered.onRoot _) (h.onRoot _)).of_extends (.onRoot tree place _)
  | register name cell next ih =>
    have hkept := Extends.bindAt tree place name cell
    exact (ih (hkept.ordered hordered) (h.bind hordered name cell)).of_extends hkept
  | execute v next ih =>
    exact (refines_value hD v hordered h).andThen fun tree' m hkept h =>
      ih (hkept.ordered hordered) h
  | inChild bindings body next ihBody ihNext =>
    obtain ⟨environment, hplace, -⟩ := h.environment
    have hbody := ihBody (hordered.openAt hplace bindings) (h.opened hordered bindings)
    simp only [Procedure.runAt, Procedure.run]
    -- the procedure ends either in the child or behind it
    generalize body.runAt D tree.environments.size (tree.openAt place bindings) = o at hbody
    generalize body.run D' (m.child bindings) = o' at hbody
    obtain ⟨fault?, after⟩ := o
    obtain ⟨fault?', c⟩ := o'
    obtain ⟨hfault, hvisible, hchild⟩ := hbody
    simp only at hfault hvisible hchild
    subst hfault
    have hkept := hchild.of_child hplace
    have hback := h.back hordered hchild hvisible.root
    cases fault? with
    | none =>
      simp only [TreeOutcome.andThen, hvisible.stackAt_eq]
      exact (ihNext c.stack (hkept.ordered hordered) hback).of_extends hkept
    | some fault => exact .of_eq hkept hback
  | emit event next ih => exact (ih (hordered.onRoot _) (h.emit event)).of_extends (.onRoot tree place _)

theorem refines_invoke (hD : DispatchesRefine D D') (name : String) (cell : Cell)
    (hordered : tree.IsOrdered) (h : tree.Shows place m) :
    Refines place tree (cell.invokeAt D name place tree) (cell.invoke D' name m) := by
  cases cell with
  | program instructions =>
    exact (refines_each hD instructions (hordered.onRoot _) (h.emit _)).of_extends (.onRoot tree place _)
  | values items => exact .of_eq (.restackAt tree place _) (h.push _)
  | external body =>
    exact ((refines_run hD body (hordered.onRoot _) (h.emit _)).of_extends (.onRoot tree place _)).wrap
  | foreign content => exact .of_eq (.refl place tree) h

end

namespace Tree

theorem refines_dispatchWithin (room : Nat) :
    DispatchesRefine (dispatchWithin room) (Machine.dispatchWithin room) := by
  induction room with
  | zero =>
    intro name place tree m hordered h
    simp only [dispatchWithin, Machine.dispatchWithin, h.found, h.root]
    cases m.find? name <;> exact .of_eq (.refl place tree) h
  | succ room ih =>
    intro name place tree m hordered h
    have hfound := h.found name
    cases hcell : m.find? name with
    | none =>
      rw [hcell] at hfound
      simp only [dispatchWithin, Machine.dispatchWithin, hcell, hfound]
      exact .of_eq (.refl place tree) h
    | some cell =>
      rw [hcell] at hfound
      rw [Machine.dispatchWithin_succ room hcell]
      simp only [dispatchWithin, hfound]
      have hinvoke := refines_invoke ih name cell (hordered.onRoot _) (h.onRoot fun root =>
        { root with depth := root.depth + 1 })
      exact (hinvoke.of_extends (.onRoot tree place _)).onRoot _

/-- Executing a program in place is executing it on what is seen from the place, and all that was in
the tree stays as it was but the stack and the registers at the place, and the root. -/
theorem refines_execute {tree : Tree} (hordered : tree.IsOrdered) {place : Nat} {m : Machine}
    (h : tree.Shows place m) (program : List Instruction) :
    Refines place tree (tree.execute place program) (m.execute program) := by
  have hroom : tree.room = m.room := by
    rw [room, h.root]
    rfl
  rw [execute, hroom]
  exact refines_each (refines_dispatchWithin m.room) program hordered h

end Tree

end QuoteStack

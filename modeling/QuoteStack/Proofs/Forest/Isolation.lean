import QuoteStack.Proofs.Forest.InPlace
import QuoteStack.Proofs.Session.Invariant

/-!
Isolation of environments. A program that runs in one environment of a forest changes the stack and
the bindings of that environment only, and there it binds names of new closures only; the shared
count of closures and what is printed grow. What it does depends on what it sees and on nothing else
in the forest. The main statement is `Forest.execute_isolated`.
-/

namespace QuoteStack

namespace Tree

variable {tree : Tree} {place : Nat} {m : Machine}

theorem findSome?_filterMap_eq (tree : Tree) (places : List Nat) (name : String) :
    (places.filterMap fun other => (tree.environments[other]?).map (·.registers)).findSome?
      (fun registers => registers.find? name) = tree.findAmong? places name := by
  induction places with
  | nil => rfl
  | cons other rest ih =>
    cases hother : tree.environments[other]? with
    | none =>
      rw [List.filterMap_cons, hother]
      simp only [Option.map_none, ih]
      rw [findAmong?, findAmong?, List.findSome?_cons, hother]
      rfl
    | some environment =>
      rw [findAmong?_cons hother, ← ih, List.filterMap_cons, hother]
      simp only [Option.map_some, List.findSome?_cons]
      cases environment.registers.find? name <;> rfl

/-- The view of a place is what is seen from it. -/
theorem shows_of_view (h : tree.view? place = some m) : tree.Shows place m := by
  obtain ⟨environment, hplace, rfl⟩ := Option.map_eq_some_iff.mp h
  refine ⟨⟨environment, hplace, rfl, rfl⟩, fun name => ?_, rfl⟩
  rw [findAt?_eq hplace, ← findSome?_filterMap_eq]
  show _ = (Scope.ofChain _).find? name
  rw [Scope.find?_ofChain, List.findSome?_cons]
  cases environment.registers.find? name <;> rfl

theorem isOrdered_ofMachine (m : Machine) : (ofMachine m).IsOrdered := by
  intro place environment hplace ancestor hancestor
  have hmem := Array.mem_of_getElem? hplace
  obtain rfl := Array.mem_singleton.mp hmem
  exact absurd hancestor List.not_mem_nil

theorem IsOrdered.addChild (h : tree.IsOrdered) (place : Nat) : (tree.addChild place).IsOrdered := by
  cases hplace : tree.environments[place]? with
  | none =>
    rw [Tree.addChild, hplace]
    exact h
  | some environment => exact h.openAt hplace []

theorem IsOrdered.update (h : tree.IsOrdered) (place : Nat) (m : Machine) :
    (tree.update place m).IsOrdered := by
  have hkept : Extends place (tree.onRoot fun _ => m.root) (tree.update place m) :=
    Extends.modifyAt _ place fun _ => rfl
  exact hkept.ordered h

/-- All that was in a tree is, after running at a place, as if the view of the place had been run and
put back. -/
theorem Extends.eq_update {after : Tree} (hkept : Extends place tree after)
    (h : after.Shows place m) {other : Nat} (hother : other < tree.environments.size) :
    after.environments[other]? = (tree.update place m).environments[other]? := by
  show _ = (tree.environments.modify place _)[other]?
  rw [Array.getElem?_modify]
  split
  · next heq =>
    subst heq
    obtain ⟨environment, hafter, hstack, hregisters⟩ := h.environment
    have hancestors := hkept.ancestors
    rw [hafter, Array.getElem?_eq_getElem hother] at hancestors
    rw [hafter, Array.getElem?_eq_getElem hother, ← hstack, ← hregisters, Option.map_some]
    rw [Option.map_some, Option.map_some] at hancestors
    rw [← Option.some.inj hancestors]
  · next hne => exact hkept.others other hother fun heq => hne heq.symm

end Tree

/-! ## Forests -/

/-- The trees of a session are ordered. -/
theorem Session.isOrdered_run (limits : Limits) (cells : List (String × Cell))
    (requests : List Request) :
    ∀ tree ∈ ((Session.new limits cells).run requests).2.forest.trees, tree.IsOrdered := by
  have hinv : Session.Invariant limits cells Tree.IsOrdered (fun _ => True) (fun _ => True) :=
    { new := Tree.isOrdered_ofMachine _
      addChild := fun _ place h => h.addChild place
      update := fun _ place _ _ h _ _ => h.update place _
      refused := fun _ => trivial
      failed := fun _ _ _ _ _ _ _ _ _ => trivial }
  exact (hinv.run hinv.satisfies_new requests fun _ _ _ _ => trivial).1.trees

/-- How running in place in a forest ends: with a fault or without, and with the forest it leaves. -/
structure ForestOutcome where
  fault? : Option Fault
  forest : Forest

namespace Forest

/-- The environment at a place. -/
def environment? (forest : Forest) (place : Place) : Option Environment :=
  forest.trees[place.tree]? >>= fun tree => tree.environments[place.environment]?

/-- The root of the environment at a place. -/
def root? (forest : Forest) (place : Place) : Option Root :=
  (forest.trees[place.tree]?).map (·.root)

/-- The cell that a name is bound to at a place or in the nearest environment around it. -/
def findAt? (forest : Forest) (place : Place) (name : String) : Option Cell :=
  forest.trees[place.tree]? >>= fun tree => tree.findAt? place.environment name

/-- Replaces a tree. -/
def put (forest : Forest) (place : Nat) (tree : Tree) : Forest :=
  ⟨forest.trees.modify place fun _ => tree⟩

/-- Executes a program in place. -/
def execute (forest : Forest) (place : Place) (program : List Instruction) : ForestOutcome :=
  match forest.trees[place.tree]? with
  | none => ⟨none, forest⟩
  | some tree =>
    let outcome := tree.execute place.environment program
    ⟨outcome.fault?, forest.put place.tree outcome.tree⟩

/-- In each tree, every environment comes after those around it. -/
def IsOrdered (forest : Forest) : Prop :=
  ∀ tree ∈ forest.trees, tree.IsOrdered

/-- Two forests agree, from a place in each, in what a program sees: the stack and the bindings of
the environment there, what names are bound to there or in the nearest environment around, and the
limits, the depth and the count of closures of the root. -/
structure Agrees (forest : Forest) (place : Place) (forest' : Forest) (place' : Place) : Prop where
  environments : ∃ environment environment', forest.environment? place = some environment ∧
    forest'.environment? place' = some environment' ∧ environment'.stack = environment.stack ∧
    ∀ name, environment'.registers.find? name = environment.registers.find? name
  found : ∀ name, forest'.findAt? place' name = forest.findAt? place name
  roots : ∃ root root', forest.root? place = some root ∧ forest'.root? place' = some root' ∧
    root'.limits = root.limits ∧ root'.depth = root.depth ∧ root'.minted = root.minted

section
variable {forest : Forest} {place : Place} {tree : Tree} {m : Machine}

theorem getElem?_put (h : forest.trees[place.tree]? = some tree) (after : Tree) (other : Nat) :
    (forest.put place.tree after).trees[other]? =
      if place.tree = other then some after else forest.trees[other]? := by
  rw [put, Array.getElem?_modify]
  split
  · next heq =>
    rw [← heq, h]
    rfl
  · rfl

theorem update_eq_put (h : forest.trees[place.tree]? = some tree) (m : Machine) :
    forest.update place m = forest.put place.tree (tree.update place.environment m) := by
  have htrees : forest.trees.modify place.tree (fun t => t.update place.environment m) =
      forest.trees.modify place.tree fun _ => tree.update place.environment m := by
    refine Array.ext_getElem? fun i => ?_
    rw [Array.getElem?_modify, Array.getElem?_modify]
    split
    · next heq =>
      rw [← heq, h]
      rfl
    · rfl
  rw [update, put, htrees]

/-- Running in place refines running the view, with the tree put back where it was. -/
theorem execute_eq (h : forest.trees[place.tree]? = some tree) (program : List Instruction) :
    forest.execute place program =
      ⟨(tree.execute place.environment program).fault?,
        forest.put place.tree (tree.execute place.environment program).tree⟩ := by
  rw [execute, h]

theorem environment?_put (h : forest.trees[place.tree]? = some tree) (after : Tree) (other : Place) :
    (forest.put place.tree after).environment? other =
      if place.tree = other.tree then after.environments[other.environment]?
      else forest.environment? other := by
  rw [environment?, getElem?_put h]
  split <;> rfl

theorem root?_put (h : forest.trees[place.tree]? = some tree) (after : Tree) :
    (forest.put place.tree after).root? place = some after.root := by
  rw [root?, getElem?_put h, if_pos rfl]
  rfl

theorem findAt?_put (h : forest.trees[place.tree]? = some tree) (after : Tree) (name : String) :
    (forest.put place.tree after).findAt? place name = after.findAt? place.environment name := by
  rw [findAt?, getElem?_put h, if_pos rfl]
  rfl

/-- What is seen from places that agree is alike. -/
theorem Agrees.alike {forest' : Forest} {place' : Place} (h : forest.Agrees place forest' place')
    {tree' : Tree} (htree : forest.trees[place.tree]? = some tree)
    (htree' : forest'.trees[place'.tree]? = some tree') {n : Machine}
    (hm : tree.Shows place.environment m) (hn : tree'.Shows place'.environment n) :
    Machine.Alike m.root.journal n.root.journal m n := by
  obtain ⟨e, e', he, he', hstack, hregisters⟩ := h.environments
  obtain ⟨r, r', hr, hr', hlimits, hdepth, hminted⟩ := h.roots
  have hfound := h.found
  simp only [environment?, root?, findAt?, htree, htree', Option.bind_eq_bind, Option.bind_some,
    Option.map_some, Option.some.injEq] at he he' hr hr' hfound
  obtain ⟨f, hf, hfstack, hfregisters⟩ := hm.environment
  obtain ⟨f', hf', hfstack', hfregisters'⟩ := hn.environment
  obtain rfl := Option.some.inj (he.symm.trans hf)
  obtain rfl := Option.some.inj (he'.symm.trans hf')
  subst hr hr'
  rw [hm.root, hn.root] at hlimits hdepth hminted
  refine ⟨?_, fun name => ?_, fun name => ?_, ?_, hminted, [], rfl, rfl⟩
  · rw [← hfstack, ← hfstack', hstack]
  · rw [← hfregisters, ← hfregisters', hregisters]
  · rw [← hm.found, ← hn.found, hfound]
  · rw [Machine.counters, Machine.counters, hlimits, hdepth]

/-- States that are alike are seen from places that agree. -/
theorem agrees_put {forest' : Forest} {place' : Place} {tree' after after' : Tree} {n : Machine}
    {before before' : List Event} (htree : forest.trees[place.tree]? = some tree)
    (htree' : forest'.trees[place'.tree]? = some tree') (hm : after.Shows place.environment m)
    (hn : after'.Shows place'.environment n) (h : Machine.Alike before before' m n) :
    (forest.put place.tree after).Agrees place (forest'.put place'.tree after') place' where
  environments := by
    obtain ⟨e, he, hstack, hregisters⟩ := hm.environment
    obtain ⟨e', he', hstack', hregisters'⟩ := hn.environment
    refine ⟨e, e', ?_, ?_, ?_, fun name => ?_⟩
    · rw [environment?_put htree, if_pos rfl, he]
    · rw [environment?_put htree', if_pos rfl, he']
    · rw [hstack, hstack', h.stack]
    · rw [hregisters, hregisters', h.own]
  found name := by rw [findAt?_put htree, findAt?_put htree', hm.found, hn.found, h.found]
  roots := by
    refine ⟨_, _, root?_put htree after, root?_put htree' after', ?_, ?_, ?_⟩
    · rw [hm.root, hn.root, h.limits_eq]
    · rw [hm.root, hn.root, h.depth_eq]
    · rw [hm.root, hn.root, h.minted]

end

end Forest

/-- What is printed after a run is what was printed before, and whole lines behind it. -/
theorem Event.exists_printedText_eq {before after : List Event} (h : before <:+ after) :
    ∃ lines : List String, Event.printedText after.reverse =
      Event.printedText before.reverse ++ String.join (lines.map (· ++ "\n")) := by
  obtain ⟨events, rfl⟩ := h
  refine ⟨events.reverse.filterMap line?, ?_⟩
  rw [List.reverse_append, printedText, printedText, List.filterMap_append, List.map_append,
    String.join_append]

namespace Forest

section
variable {forest : Forest} {place : Place} {environment : Environment}

/-- Running in place in a forest refines running the view of the place. -/
theorem exists_refines (hordered : forest.IsOrdered)
    (hplace : forest.environment? place = some environment) (program : List Instruction) :
    ∃ tree m, forest.trees[place.tree]? = some tree ∧
      tree.environments[place.environment]? = some environment ∧ forest.view? place = some m ∧
      tree.Shows place.environment m ∧
      Refines place.environment tree (tree.execute place.environment program) (m.execute program) := by
  obtain ⟨tree, htree, henvironment⟩ := Option.bind_eq_some_iff.mp hplace
  obtain ⟨m, hm⟩ : ∃ m, tree.view? place.environment = some m :=
    ⟨_, congrArg (Option.map _) henvironment⟩
  have hview : forest.view? place = some m := by
    rw [view?, htree]
    exact hm
  have hshows := Tree.shows_of_view hm
  have htreeOrdered := hordered tree (Array.mem_of_getElem? htree)
  exact ⟨tree, m, htree, henvironment, hview, hshows,
    Tree.refines_execute htreeOrdered hshows program⟩

/-- No other environment changes. -/
theorem environment?_execute_of_ne (hordered : forest.IsOrdered)
    (hplace : forest.environment? place = some environment) (program : List Instruction)
    {other : Place} (hne : other ≠ place) (hother : (forest.environment? other).isSome) :
    (forest.execute place program).forest.environment? other = forest.environment? other := by
  obtain ⟨tree, m, htree, -, -, -, hrefines⟩ := exists_refines hordered hplace program
  rw [execute_eq htree, environment?_put htree]
  split
  · next heq =>
    have hbefore : forest.environment? other = tree.environments[other.environment]? := by
      rw [environment?, ← heq, htree]
      rfl
    rw [hbefore] at hother ⊢
    obtain ⟨found, hfound⟩ := Option.isSome_iff_exists.mp hother
    refine hrefines.kept.others _ (Array.getElem?_eq_some_iff.mp hfound).1 fun hsame => hne ?_
    obtain ⟨t, e⟩ := other
    obtain ⟨t', e'⟩ := place
    simp only at heq hsame
    rw [heq, hsame]
  · rfl

/-- Running in place is running the view of the place and putting it back. -/
theorem execute_eq_update (hordered : forest.IsOrdered)
    (hplace : forest.environment? place = some environment) (program : List Instruction) :
    ∃ m, forest.view? place = some m ∧
      (forest.execute place program).fault? = (m.execute program).fault? ∧
      ∀ other, (forest.environment? other).isSome →
        (forest.execute place program).forest.environment? other =
          (forest.update place (m.execute program).machine).environment? other := by
  obtain ⟨tree, m, htree, -, hview, -, hrefines⟩ := exists_refines hordered hplace program
  rw [execute_eq htree]
  refine ⟨m, hview, hrefines.fault_eq, fun other hother => ?_⟩
  rw [update_eq_put htree, environment?_put htree, environment?_put htree]
  split
  · next heq =>
    rw [environment?, ← heq, htree] at hother
    obtain ⟨found, hfound⟩ := Option.isSome_iff_exists.mp hother
    exact hrefines.kept.eq_update hrefines.visible (Array.getElem?_eq_some_iff.mp hfound).1
  · rfl

/-- The environment itself changes as running native cells may change it. -/
theorem execute_own {root : Root} (hordered : forest.IsOrdered)
    (hplace : forest.environment? place = some environment) (hroot : forest.root? place = some root)
    (hnative : ∀ name cell, forest.findAt? place name = some cell → cell.IsNative)
    (program : List Instruction) :
    ∃ environment' root',
      (forest.execute place program).forest.environment? place = some environment' ∧
      (forest.execute place program).forest.root? place = some root' ∧
      environment'.ancestors = environment.ancestors ∧
      (∀ name, environment'.registers.find? name ≠ environment.registers.find? name →
        ∃ n, root.minted ≤ n ∧ n < root'.minted ∧ name = Machine.closureName n) ∧
      root.minted ≤ root'.minted ∧ root.journal <:+ root'.journal := by
  obtain ⟨tree, m, htree, henvironment, -, hshows, hrefines⟩ :=
    exists_refines hordered hplace program
  obtain ⟨before, hbefore, -, hregisters⟩ := hshows.environment
  obtain rfl := Option.some.inj (henvironment.symm.trans hbefore)
  obtain ⟨after, hafter, -, hregisters'⟩ := hrefines.visible.environment
  have hmroot : m.root = root := by
    rw [← hshows.root]
    rw [root?, htree] at hroot
    exact Option.some.inj hroot
  -- what the machine finds is what is found from the place
  have hm : m.IsNative := by
    intro name cell hcell
    refine hnative name cell ?_
    rw [findAt?, htree]
    exact (hshows.found name).trans hcell
  have hadvances := Machine.advances_execute hm program
  rw [execute_eq htree]
  refine ⟨after, (m.execute program).machine.root, ?_, ?_, ?_, fun name hname => ?_, ?_, ?_⟩
  · rw [environment?_put htree, if_pos rfl, hafter]
  · rw [root?_put htree, hrefines.visible.root]
  · have hancestors := hrefines.kept.ancestors
    rw [hafter, henvironment] at hancestors
    exact Option.some.inj hancestors
  · rw [hregisters, hregisters'] at hname
    -- any register whose name has not been made up on the way is as before
    obtain ⟨n, hlow, hhigh, heq⟩ : Machine.IsMinted m (m.execute program).machine name :=
      Classical.not_not.mp fun hminted => hname (hadvances.own name hminted)
    exact ⟨n, hmroot ▸ hlow, hhigh, heq⟩
  · exact hmroot ▸ hadvances.minted_le
  · exact hmroot ▸ hadvances.journal

/-- From places that agree a program does the same. -/
theorem execute_agrees {forest' : Forest} {place' : Place} (hordered : forest.IsOrdered)
    (hordered' : forest'.IsOrdered) (h : forest.Agrees place forest' place')
    (program : List Instruction) :
    (forest'.execute place' program).fault? = (forest.execute place program).fault? ∧
      (forest.execute place program).forest.Agrees place
        (forest'.execute place' program).forest place' ∧
      ∃ events,
        ((forest.execute place program).forest.root? place).map (·.journal) =
          ((forest.root? place).map (·.journal)).map (events ++ ·) ∧
        ((forest'.execute place' program).forest.root? place').map (·.journal) =
          ((forest'.root? place').map (·.journal)).map (events ++ ·) := by
  obtain ⟨environment, environment', hplace, hplace', -⟩ := h.environments
  obtain ⟨tree, m, htree, -, -, hm, hrefines⟩ := exists_refines hordered hplace program
  obtain ⟨tree', n, htree', -, -, hn, hrefines'⟩ := exists_refines hordered' hplace' program
  -- both places show machines that are alike, and these end alike
  obtain ⟨hfault, halike⟩ := Machine.execute_alike (h.alike htree htree' hm hn) program
  rw [execute_eq htree, execute_eq htree']
  refine ⟨?_, agrees_put htree htree' hrefines.visible hrefines'.visible halike, ?_⟩
  · rw [hrefines.fault_eq, hrefines'.fault_eq, hfault]
  · obtain ⟨events, hevents, hevents'⟩ := halike.journal
    refine ⟨events, ?_, ?_⟩
    · rw [root?_put htree, root?, htree, hrefines.visible.root, Option.map_some, Option.map_some,
        Option.map_some, Option.map_some, hevents, hm.root]
    · rw [root?_put htree', root?, htree', hrefines'.visible.root, Option.map_some, Option.map_some,
        Option.map_some, Option.map_some, hevents', hn.root]

end

/-- Environments are isolated. A program that meets native cells only, and runs in place in an
environment of a forest, with a fault or without, leaves all other environments as they were. In its
own it binds only names of closures with numbers from the count before the run to that after it,
exclusively; the count does not get less, and the printed text grows by whole lines at its end. This
is what running the view of the place and putting it back into the forest does. And what is seen
from a place decides: from a place of another forest that agrees in it, the program ends with the
same fault or none, with the same events, and so that the places agree again. -/
theorem execute_isolated (forest : Forest) (hordered : forest.IsOrdered) (place : Place)
    (environment : Environment) (root : Root)
    (hplace : forest.environment? place = some environment) (hroot : forest.root? place = some root)
    (hnative : ∀ name cell, forest.findAt? place name = some cell → cell.IsNative)
    (program : List Instruction) :
    (∀ other, other ≠ place → (forest.environment? other).isSome →
      (forest.execute place program).forest.environment? other = forest.environment? other) ∧
    (∃ environment' root',
      (forest.execute place program).forest.environment? place = some environment' ∧
      (forest.execute place program).forest.root? place = some root' ∧
      environment'.ancestors = environment.ancestors ∧
      (∀ name, environment'.registers.find? name ≠ environment.registers.find? name →
        ∃ n, root.minted ≤ n ∧ n < root'.minted ∧ name = Machine.closureName n) ∧
      root.minted ≤ root'.minted ∧
      ∃ lines : List String, Event.printedText root'.journal.reverse =
        Event.printedText root.journal.reverse ++ String.join (lines.map (· ++ "\n"))) ∧
    (∃ m, forest.view? place = some m ∧
      (forest.execute place program).fault? = (m.execute program).fault? ∧
      ∀ other, (forest.environment? other).isSome →
        (forest.execute place program).forest.environment? other =
          (forest.update place (m.execute program).machine).environment? other) ∧
    ∀ (forest' : Forest) (place' : Place), forest'.IsOrdered →
      forest.Agrees place forest' place' →
        (forest'.execute place' program).fault? = (forest.execute place program).fault? ∧
        (forest.execute place program).forest.Agrees place
          (forest'.execute place' program).forest place' ∧
        ∃ events,
          ((forest.execute place program).forest.root? place).map (·.journal) =
            ((forest.root? place).map (·.journal)).map (events ++ ·) ∧
          ((forest'.execute place' program).forest.root? place').map (·.journal) =
            ((forest'.root? place').map (·.journal)).map (events ++ ·) := by
  have howner := execute_own hordered hplace hroot hnative program
  obtain ⟨environment', root', henvironment', hroot', hancestors, hregisters, hminted, hjournal⟩ :=
    howner
  refine ⟨fun other hne hother => environment?_execute_of_ne hordered hplace program hne hother,
    ⟨environment', root', henvironment', hroot', hancestors, hregisters, hminted,
      Event.exists_printedText_eq hjournal⟩,
    execute_eq_update hordered hplace program, fun forest' place' hordered' hagrees => ?_⟩
  exact execute_agrees hordered hordered' hagrees program

/-- A closure that is made in a child leaves the root environment around it as it was. -/
theorem execute_isolated_closure_in_child :
    let forest : Forest := ⟨#[(Tree.ofMachine (.new {})).addChild 0]⟩
    let place : Place := ⟨0, 1⟩
    let program : List Instruction :=
      [.value (.block [.symbol "xx"]), .value (.symbol "do")]
    forest.IsOrdered ∧ forest.environment? place = some ⟨[], ∅, [0]⟩ ∧
      forest.root? place = some { limits := {} } ∧
      (∀ name cell, forest.findAt? place name = some cell → cell.IsNative) ∧
      (forest.execute place program).forest.environment? ⟨0, 0⟩ = forest.environment? ⟨0, 0⟩ := by
  intro forest place program
  -- a session has come to this forest when it has been asked for the child
  have hordered : forest.IsOrdered :=
    Session.isOrdered_run {} Builtin.cells [.child Session.rootName "inner"]
  have hnative : ∀ name cell, forest.findAt? place name = some cell → cell.IsNative := by
    intro name cell hcell
    have hroot : ((Tree.ofMachine (.new {})).addChild 0).environments[0]? =
        some ⟨[], (Machine.new {}).scope.own, []⟩ := rfl
    have haround : forest.findAt? place name =
        ((Tree.ofMachine (.new {})).addChild 0).findAmong? [0] name := rfl
    have hnone : ((Tree.ofMachine (.new {})).addChild 0).findAmong? [] name = none := rfl
    rw [haround, Tree.findAmong?_cons hroot, hnone, Option.or_none] at hcell
    exact (Machine.binds_new {}).own name cell hcell
  refine ⟨hordered, rfl, rfl, hnative, ?_⟩
  have hresult := execute_isolated forest hordered place _ _ rfl rfl hnative program
  exact hresult.1 ⟨0, 0⟩ (by decide) rfl

end Forest

end QuoteStack

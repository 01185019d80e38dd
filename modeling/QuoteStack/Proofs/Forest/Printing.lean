import Mathlib.Data.List.Forall2
import QuoteStack.Proofs.Forest.Scene
import QuoteStack.Proofs.Run.Printing

/-!
Printing does not influence what is computed. If the environments of a tree differ from those of
another one only in that some cells do nothing in place of printing, a program that runs in an
environment of the one ends as it does in the other, and leaves the trees that way. The main
statement is `Tree.execute_without_printing`.
-/

namespace QuoteStack

/-- The second environment differs from the first one in cells that print at most. -/
structure Environment.Quieter (environment environment' : Environment) : Prop where
  stack : environment'.stack = environment.stack
  registers : environment.registers.Quieter environment'.registers
  ancestors : environment'.ancestors = environment.ancestors

namespace Tree

/-- The second tree differs from the first one in cells that print at most, and in the journal. -/
structure Quieter (tree tree' : Tree) : Prop where
  environments : ∀ place : Nat,
    Option.Rel Environment.Quieter tree.environments[place]? tree'.environments[place]?
  depth : tree'.root.depth = tree.root.depth
  limits : tree'.root.limits = tree.root.limits
  minted : tree'.root.minted = tree.root.minted

section
variable {tree tree' : Tree}

/-- A name is found in related environments under related cells. -/
theorem quieter_findSome? {chain chain' : List Registers}
    (h : List.Forall₂ Registers.Quieter chain chain') (name : String) :
    QuieterFound (chain.findSome? fun registers => registers.find? name)
      (chain'.findSome? fun registers => registers.find? name) := by
  induction h with
  | nil => exact .none
  | @cons registers registers' rest rest' hfirst _ ih =>
    have hor : ∀ (registers : Registers) (rest : List Registers),
        ((registers :: rest).findSome? fun registers => registers.find? name) =
          (registers.find? name).or (rest.findSome? fun registers => registers.find? name) := by
      intro registers rest
      rw [List.findSome?_cons]
      cases registers.find? name <;> rfl
    rw [hor, hor]
    exact (hfirst name).or ih

/-- The registers around an environment are related. -/
theorem Quieter.around (h : tree.Quieter tree') (places : List Nat) :
    List.Forall₂ Registers.Quieter
      (places.filterMap fun place => (tree.environments[place]?).map (·.registers))
      (places.filterMap fun place => (tree'.environments[place]?).map (·.registers)) := by
  refine List.rel_filterMap (R := Eq) ?_ (List.forall₂_refl _)
  rintro place _ rfl
  dsimp only
  have henvironments := h.environments place
  generalize tree.environments[place]? = environment? at henvironments ⊢
  generalize tree'.environments[place]? = environment?' at henvironments ⊢
  cases henvironments with
  | none => exact .none
  | some henvironment => exact .some henvironment.registers

/-- What is seen from a place of related trees differs in printing at most. -/
theorem Quieter.view (h : tree.Quieter tree') {place : Nat} {m : Machine}
    (hview : tree.view? place = some m) :
    ∃ n, tree'.view? place = some n ∧ Machine.Quieter m.root.journal n.root.journal m n := by
  unfold view? at hview ⊢
  have henvironments := h.environments place
  generalize tree.environments[place]? = environment? at henvironments hview
  generalize tree'.environments[place]? = environment?' at henvironments ⊢
  cases henvironments with
  | none => cases hview
  | @some environment environment' henvironment =>
    obtain rfl := Option.some.inj hview
    refine ⟨_, rfl, henvironment.stack, henvironment.registers, fun name => ?_, ?_, h.minted, ?_⟩
    · unfold Machine.find?
      dsimp only
      -- the environments around are at the same places on both sides
      rw [Scope.find?_ofChain, Scope.find?_ofChain, henvironment.ancestors]
      exact quieter_findSome? (.cons henvironment.registers (h.around environment.ancestors)) name
    · show (tree'.root.depth, tree'.root.limits) = (tree.root.depth, tree.root.limits)
      rw [h.depth, h.limits]
    · exact ⟨[], [], rfl, rfl, .nil⟩

/-- Putting back what differs in printing at most. -/
theorem Quieter.update (h : tree.Quieter tree') (place : Nat) {before before' : List Event}
    {m n : Machine} (hleft : Machine.Quieter before before' m n) :
    (tree.update place m).Quieter (tree'.update place n) where
  environments other := by
    rw [getElem?_update, getElem?_update]
    have henvironments := h.environments other
    generalize tree.environments[other]? = environment? at henvironments ⊢
    generalize tree'.environments[other]? = environment?' at henvironments ⊢
    by_cases hplace : place = other
    · rw [if_pos hplace, if_pos hplace]
      cases henvironments with
      | none => exact .none
      | some henvironment =>
        exact .some ⟨hleft.stack, hleft.own, henvironment.ancestors⟩
    · rw [if_neg hplace, if_neg hplace]
      exact henvironments
  depth := hleft.depth_eq
  limits := hleft.limits_eq
  minted := hleft.minted

/-- Replacing the procedure that prints by one that does nothing, wherever it is bound, changes no
run. Let two trees of environments be given, of which the second differs from the first one at most
in such cells and in the journal. A program that runs in an environment of the first tree ends with
the same fault or none in that of the second, and the trees that it leaves differ that way, too: the
stacks of all environments are the same, and so are the registers up to such cells, the limits, the
dispatches in progress and the closures that have been counted. What happens on the way is the same
without some of the lines that are printed and the records of them. -/
theorem execute_without_printing (h : tree.Quieter tree') {place : Nat} {m : Machine}
    (hview : tree.view? place = some m) (program : List Instruction) :
    ∃ n, tree'.view? place = some n ∧
      (n.execute program).fault? = (m.execute program).fault? ∧
      (tree.update place (m.execute program).machine).Quieter
        (tree'.update place (n.execute program).machine) ∧
      ∃ events events',
        (m.execute program).machine.root.journal = events ++ m.root.journal ∧
        (n.execute program).machine.root.journal = events' ++ n.root.journal ∧
        Event.Muted events events' ∧
        (events'.filter fun event => !event.isShow) =
          events.filter fun event => !event.isShow := by
  obtain ⟨n, hview', hquieter⟩ := h.view hview
  obtain ⟨hfault, hleft⟩ := Machine.execute_quieter hquieter program
  obtain ⟨events, events', hjournal, hjournal', hmuted⟩ := hleft.journal
  exact ⟨n, hview', hfault, h.update place hleft, events, events', hjournal, hjournal', hmuted,
    hmuted.filter_eq⟩

/-- A root environment may print or not when its child runs a closure that prints. -/
theorem execute_without_printing_in_child :
    let root := Machine.new {}
    let silent := root.scope.own.set "dbg" (.external .done)
    let tree : Tree := ⟨root.root, #[⟨[], root.scope.own, []⟩, ⟨[], ∅, [0]⟩]⟩
    let tree' : Tree := ⟨root.root, #[⟨[], silent, []⟩, ⟨[], ∅, [0]⟩]⟩
    let program : List Instruction :=
      [.value (.block [.symbol "dbg", .number (.ofNat 1), .symbol "dbg"]), .value (.symbol "do"),
        .value (.symbol "__do0")]
    ∃ m n, tree.view? 1 = some m ∧ tree'.view? 1 = some n ∧ tree.Quieter tree' ∧
      (n.execute program).fault? = (m.execute program).fault? ∧
      (tree.update 1 (m.execute program).machine).Quieter
        (tree'.update 1 (n.execute program).machine) ∧
      (m.execute program).machine.root.journal.filterMap Event.line? = ["[1]", "__do0"] ∧
      (n.execute program).machine.root.journal.filterMap Event.line? = [] := by
  intro root silent tree tree' program
  have hroot : root.scope.own.Quieter silent := Registers.quieter_set rfl
  have hquieter : tree.Quieter tree' := by
    refine ⟨fun place => ?_, rfl, rfl, rfl⟩
    match place with
    | 0 => exact .some ⟨rfl, hroot, rfl⟩
    | 1 => exact .some ⟨rfl, fun _ => .refl _, rfl⟩
    | _ + 2 => exact .none
  obtain ⟨m, hview⟩ : ∃ m, tree.view? 1 = some m := ⟨_, rfl⟩
  obtain ⟨n, hview', hfault, hupdate, -⟩ := execute_without_printing hquieter hview program
  refine ⟨m, n, hview, hview', hquieter, hfault, hupdate, ?_, ?_⟩
  · rw [← Option.some.inj hview]
    decide +kernel
  · rw [← Option.some.inj hview']
    decide +kernel

end

end Tree

end QuoteStack

import QuoteStack.Proofs.Arithmetic.Fold
import QuoteStack.Proofs.Run.Trace

/-!
Overriding an operator. Blocks are combined item by item by dispatching the name of the operator, so
whatever the name is bound to where the operator runs decides what becomes of each pair. The
operator's own rules for numbers and symbols take no part in this. The main statement is
`fold_of_override`.
-/

namespace QuoteStack

namespace Machine

/-- The second state finds the cells that the first one finds, in its own environment and around
it. -/
structure SameRegisters (m n : Machine) : Prop where
  own : ∀ name, n.scope.own.find? name = m.scope.own.find? name
  found : ∀ name, n.find? name = m.find? name

/-- The second state is the first one with the given stack, whatever has been noted in the journal
and however many names have been made up since. -/
structure Restacked (m : Machine) (stack : List Value) (n : Machine) : Prop where
  registers : m.SameRegisters n
  counters : n.counters = m.counters
  stack : n.stack = stack

/-- Dispatching the name replaces a pair at the top of any stack by the value of a function, and
changes no register, as long as nothing on the way is refused because of the depth. -/
def Combines (m : Machine) (name : String) (h : Value → Value → Value) : Prop :=
  ∀ (n : Machine) (v w : Value) (rest : List Value), m.Restacked (.block [v, w] :: rest) n →
    Moment.StaysBelow ⟨.dispatch name, [], n⟩ →
      (n.dispatch name).fault? = none ∧ m.Restacked (h v w :: rest) (n.dispatch name).machine

theorem Restacked.refl (m : Machine) : m.Restacked m.stack m :=
  ⟨⟨fun _ => rfl, fun _ => rfl⟩, rfl, rfl⟩

theorem Restacked.push {m n : Machine} {stack : List Value} (hn : m.Restacked stack n) (v : Value) :
    m.Restacked (v :: stack) (n.push v) :=
  ⟨⟨hn.registers.own, hn.registers.found⟩, hn.counters, congrArg (v :: ·) hn.stack⟩

theorem Restacked.restack {m n : Machine} {stack : List Value} (hn : m.Restacked stack n)
    (rest : List Value) : m.Restacked rest { n with stack := rest } :=
  ⟨⟨hn.registers.own, hn.registers.found⟩, hn.counters, rfl⟩

theorem Restacked.depth_eq {m n : Machine} {stack : List Value} (hn : m.Restacked stack n) :
    n.root.depth = m.root.depth :=
  congrArg Prod.fst hn.counters

end Machine

namespace Operator

open Moment

/-- The pairs that are combined where blocks are folded item by item, in order of the blocks and then
of the items. -/
def pairs (h : Value → Value → Value) : List Value → List (List Value) → List (Value × Value)
  | _, [] => []
  | result, items :: others => result.zip items ++ pairs h (List.zipWith h result items) others

theorem length_zipWith_of_length_eq (h : Value → Value → Value) {width : Nat}
    {left right : List Value} (hleft : left.length = width) (hright : right.length = width) :
    (List.zipWith h left right).length = width := by
  rw [List.length_zipWith, hleft, hright, Nat.min_self]

/-- There is a pair for each item of each block but the first. -/
theorem length_pairs (h : Value → Value → Value) {width : Nat} {others : List (List Value)}
    {first : List Value} (hfirst : first.length = width)
    (hothers : ∀ items ∈ others, items.length = width) :
    (pairs h first others).length = others.length * width := by
  induction others generalizing first with
  | nil => exact (Nat.zero_mul width).symm
  | cons items others ih =>
    obtain ⟨hitems, hothers⟩ := List.forall_mem_cons.mp hothers
    have hresult := length_zipWith_of_length_eq h hfirst hitems
    rw [pairs, List.length_append, ih hresult hothers, List.length_zip, hfirst, hitems,
      Nat.min_self, List.length_cons, Nat.succ_mul, Nat.add_comm]

/-- The dispatch of a name for a pair, with the stack that it finds. -/
def callOf (name : String) (rest : List Value) (pair : Value × Value) : String × List Value :=
  (name, .block [pair.1, pair.2] :: rest)

/-- Goes on with what dispatching a name makes of a pair. -/
def combinePair (name : String) (v w : Value) (next : Value → Procedure) : Procedure :=
  .push (.block [v, w]) <| .execute (.symbol name) <| .pop next

theorem pairwise_cons (name : String) (next : List Value → Procedure) (combined : List Value)
    (v w : Value) (left right : List Value) :
    pairwise name next combined (v :: left) (w :: right) =
      combinePair name v w fun result => pairwise name next (result :: combined) left right :=
  rfl

section
variable {m n : Machine} {name : String} {h : Value → Value → Value} {rest : List Value}

/-- For a pair the name is dispatched once, and its result is popped. -/
theorem traces_combinePair (hname : m.Combines name h) (v w : Value) (next : Value → Procedure)
    (hn : m.Restacked rest n) (hbelow : StaysBelow ⟨.procedure (combinePair name v w next), [], n⟩) :
    ∃ n', m.Restacked rest n' ∧
      Traces m.root.depth ⟨.procedure (combinePair name v w next), [], n⟩ [callOf name rest (v, w)]
        ⟨.procedure (next (h v w)), [], n'⟩ := by
  have hpair := hn.push (.block [v, w])
  have hstart : Traces m.root.depth ⟨.procedure (combinePair name v w next), [], n⟩ []
      ⟨.dispatch name, [.procedure (.pop next)], n.push (.block [v, w])⟩ :=
    .quiet rfl rfl (.quiet rfl rfl (.quiet rfl rfl (.refl _)))
  have hdispatch := traces_dispatch name [.procedure (.pop next)] (n.push (.block [v, w]))
  rw [hpair.stack, hpair.depth_eq] at hdispatch
  -- the dispatch does the same without what waits for its result
  have hinner : StaysBelow
      (onTopOf ⟨.dispatch name, [], n.push (.block [v, w])⟩ [.procedure (.pop next)]) :=
    hbelow.later hstart.reaches
  obtain ⟨hok, hresult⟩ := hname (n.push (.block [v, w])) v w rest hpair hinner.of_onTopOf
  generalize (n.push (.block [v, w])).dispatch name = o at hdispatch hok hresult
  obtain ⟨fault?, stack, scope, root⟩ := o
  obtain rfl : fault? = none := hok
  obtain rfl : stack = h v w :: rest := hresult.stack
  have hpop : Traces m.root.depth
      (ended [.procedure (.pop next)] ⟨none, ⟨h v w :: rest, scope, root⟩⟩) []
      ⟨.procedure (next (h v w)), [], ⟨rest, scope, root⟩⟩ :=
    .quiet rfl rfl (.quiet rfl rfl (.refl _))
  exact ⟨_, hresult.restack rest, hstart.trans (hdispatch.trans hpop)⟩

/-- The items of two blocks of the same length are combined pair by pair. -/
theorem traces_pairwise (hname : m.Combines name h) (next : List Value → Procedure)
    {left right : List Value} (hlength : left.length = right.length) (combined : List Value)
    (hn : m.Restacked rest n)
    (hbelow : StaysBelow ⟨.procedure (pairwise name next combined left right), [], n⟩) :
    ∃ n', m.Restacked rest n' ∧
      Traces m.root.depth ⟨.procedure (pairwise name next combined left right), [], n⟩
        ((left.zip right).map (callOf name rest))
        ⟨.procedure (next (combined.reverse ++ List.zipWith h left right)), [], n'⟩ := by
  induction left generalizing right combined n with
  | nil =>
    refine ⟨n, hn, ?_⟩
    rw [List.zipWith_nil_left, List.append_nil]
    unfold pairwise
    exact .refl _
  | cons v left ih =>
    obtain ⟨w, right, rfl⟩ := List.exists_cons_of_length_eq_add_one hlength.symm
    rw [pairwise_cons] at hbelow ⊢
    -- the first pair is one call, and the others go on from the state that it leaves
    obtain ⟨n₁, hn₁, hpair⟩ := traces_combinePair hname v w _ hn hbelow
    obtain ⟨n₂, hn₂, hothers⟩ :=
      ih (Nat.succ.inj hlength) (h v w :: combined) hn₁ (hbelow.later hpair.reaches)
    refine ⟨n₂, hn₂, ?_⟩
    rw [List.reverse_cons, List.append_assoc] at hothers
    exact hpair.trans hothers

/-- Folding blocks of the same length combines their items pair by pair, block after block, whatever
the rules of the operator are. -/
theorem traces_foldFrom (op : Operator) (hname : m.Combines op.name h) (next : Value → Procedure)
    {width : Nat} {others : List (List Value)} (hothers : ∀ items ∈ others, items.length = width)
    {first : List Value} (hfirst : first.length = width) (hn : m.Restacked rest n)
    (hbelow : StaysBelow
      ⟨.procedure (op.foldFrom next (.block first) (others.map .block)), [], n⟩) :
    ∃ n', m.Restacked rest n' ∧
      Traces m.root.depth ⟨.procedure (op.foldFrom next (.block first) (others.map .block)), [], n⟩
        ((pairs h first others).map (callOf op.name rest))
        ⟨.procedure (next (.block (others.foldl (List.zipWith h) first))), [], n'⟩ := by
  induction others generalizing first n with
  | nil => exact ⟨n, hn, .refl _⟩
  | cons items others ih =>
    obtain ⟨hitems, hothers⟩ := List.forall_mem_cons.mp hothers
    have hlength : first.length = items.length := hfirst.trans hitems.symm
    have hresult := length_zipWith_of_length_eq h hfirst hitems
    -- blocks of one length are not refused, so they are combined pair by pair
    have hcombine : op.foldFrom next (.block first) ((items :: others).map .block) =
        pairwise op.name (fun combined => op.foldFrom next (.block combined) (others.map .block)) []
          first items := by
      rw [List.map_cons, foldFrom, combine, if_neg (not_not_intro hlength)]
    rw [hcombine] at hbelow ⊢
    obtain ⟨n₁, hn₁, hblock⟩ := traces_pairwise hname _ hlength [] hn hbelow
    obtain ⟨n₂, hn₂, hrest⟩ := ih hothers hresult hn₁ (hbelow.later hblock.reaches)
    refine ⟨n₂, hn₂, ?_⟩
    rw [pairs, List.map_append]
    exact hblock.trans hrest

/-- Folding a block that has items starts from the first one. -/
theorem traces_fold (op : Operator) {first : Value} {others : List Value}
    (hstack : m.stack = .block (first :: others) :: rest) (depth : Nat) :
    Traces depth ⟨.procedure op.fold, [], m⟩ []
      ⟨.procedure (op.foldFrom (fun result => .push result .done) first others), [],
        { m with stack := rest }⟩ := by
  obtain ⟨stack, scope, root⟩ := m
  obtain rfl : stack = .block (first :: others) :: rest := hstack
  exact .quiet rfl rfl (.refl _)

end

end Operator

/-- Where dispatching the name of an operator combines each pair by a function, whatever the name is
bound to, running the operator on blocks of one length replaces them by the fold of the blocks item by
item with this function, and leaves the stack below and all registers as they are, as long as nothing
on the way is refused because of the depth. The dispatches that the operator makes are those of the
name for each pair, in order of the blocks and then of the items. -/
theorem fold_of_override (op : Operator) (h : Value → Value → Value) (m : Machine) (width : Nat)
    (first : List Value) (others : List (List Value)) (rest : List Value)
    (hname : m.Combines op.name h)
    (hstack : m.stack = .block ((first :: others).map .block) :: rest)
    (hwidth : ∀ items ∈ first :: others, items.length = width)
    (hbelow : Moment.StaysBelow ⟨.procedure op.fold, [], m⟩) :
    (op.fold.run Machine.dispatcher m).fault? = none ∧
      (op.fold.run Machine.dispatcher m).machine.stack =
        .block (others.foldl (List.zipWith h) first) :: rest ∧
      m.SameRegisters (op.fold.run Machine.dispatcher m).machine ∧
      (Operator.pairs h first others).length = others.length * width ∧
      ∀ calls, Moment.Traces m.root.depth ⟨.procedure op.fold, [], m⟩ calls
          (Moment.ended [] (op.fold.run Machine.dispatcher m)) ↔
        calls = (Operator.pairs h first others).map (Operator.callOf op.name rest) := by
  obtain ⟨hfirst, hothers⟩ := List.forall_mem_cons.mp hwidth
  have hpop := Operator.traces_fold op hstack m.root.depth
  have hstart : m.Restacked rest { m with stack := rest } := (Machine.Restacked.refl m).restack rest
  obtain ⟨n, hn, hfold⟩ := Operator.traces_foldFrom op hname (fun result => .push result .done)
    hothers hfirst hstart (hbelow.later hpop.reaches)
  have hresult := hn.push (.block (others.foldl (List.zipWith h) first))
  have hpush : Moment.Traces m.root.depth
      ⟨.procedure (.push (.block (others.foldl (List.zipWith h) first)) .done), [], n⟩ []
      (Moment.ended [] ⟨none, n.push (.block (others.foldl (List.zipWith h) first))⟩) :=
    .quiet rfl rfl (.quiet rfl rfl (.refl _))
  have htrace := hpop.trans (hfold.trans hpush)
  -- the run has one end
  have hrun := Moment.ended_injective
    (Moment.eq_of_ended (Moment.reaches_run op.fold [] m) htrace.reaches rfl rfl)
  rw [hrun]
  rw [List.nil_append, List.append_nil] at htrace
  refine ⟨rfl, hresult.stack, hresult.registers, Operator.length_pairs h hfirst hothers, ?_⟩
  intro calls
  constructor
  · intro hcalls
    exact hcalls.unique htrace rfl
  · rintro rfl
    exact htrace

/-- Where the name of the sum is bound to a procedure that swaps the items of a pair, the sum of three
blocks of two numbers takes four dispatches of it. -/
theorem fold_of_override_swap :
    let op := sumOperator "sum"
    let h (v w : Value) : Value := .block [w, v]
    let swap : Procedure := .pop fun operand =>
      match operand with
      | .block [v, w] => .push (.block [w, v]) .done
      | operand => .push operand .done
    let number (n : Nat) : Value := .number (.ofNat n)
    let first : List Value := [number 1, number 2]
    let others : List (List Value) := [[number 3, number 4], [number 5, number 6]]
    let m : Machine :=
      { (Machine.new {}).set "sum" (.external swap) with
        stack := [.block ((first :: others).map .block), .symbol "rest"] }
    m.Combines op.name h ∧
      m.stack = .block ((first :: others).map .block) :: [.symbol "rest"] ∧
      (∀ items ∈ first :: others, items.length = 2) ∧
      Moment.StaysBelow ⟨.procedure op.fold, [], m⟩ ∧
      (op.fold.run Machine.dispatcher m).fault? = none ∧
      (op.fold.run Machine.dispatcher m).machine.stack =
        [.block [.block [number 5, .block [number 3, number 1]],
          .block [number 6, .block [number 4, number 2]]], .symbol "rest"] ∧
      m.SameRegisters (op.fold.run Machine.dispatcher m).machine ∧
      (Operator.pairs h first others).length = 4 ∧
      ∀ calls, Moment.Traces m.root.depth ⟨.procedure op.fold, [], m⟩ calls
          (Moment.ended [] (op.fold.run Machine.dispatcher m)) ↔
        calls = (Operator.pairs h first others).map (Operator.callOf "sum" [.symbol "rest"]) := by
  intro op h swap number first others m
  have hname : m.Combines op.name h := by
    intro n v w rest hn hbelow
    have hfind : n.find? "sum" = some (.external swap) := (hn.registers.found "sum").trans rfl
    have hless := hbelow _ (.refl _) "sum" rfl
    have hdispatch : n.dispatch "sum" =
        ⟨none, ((n.inside "sum" rest).push (.block [w, v])).leave⟩ :=
      Machine.dispatch_pop hfind hn.stack hless
    have hcounters := (Machine.counters_dispatch "sum" n).trans hn.counters
    show (n.dispatch "sum").fault? = none ∧ m.Restacked (h v w :: rest) (n.dispatch "sum").machine
    rw [hdispatch] at hcounters ⊢
    exact ⟨rfl, ⟨hn.registers.own, hn.registers.found⟩, hcounters, rfl⟩
  have hwidth : ∀ items ∈ first :: others, items.length = 2 := by decide
  have hok : (op.fold.run Machine.dispatcher m).fault? = none := by
    simp only [m, first, others, op]
    rfl
  have hbelow : Moment.StaysBelow ⟨.procedure op.fold, [], m⟩ := Moment.staysBelow_of_run hok
  exact ⟨hname, rfl, hwidth, hbelow,
    fold_of_override op h m 2 first others [.symbol "rest"] hname rfl hwidth hbelow⟩

end QuoteStack

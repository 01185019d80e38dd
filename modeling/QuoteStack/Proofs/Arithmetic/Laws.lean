import QuoteStack.Proofs.Arithmetic.Exact

/-!
Laws of arithmetic on numbers and on nested blocks of numbers. A value without symbols is known from
its shape and from the numbers at its places, so the laws of exact sums, products and differences of
numbers carry over to blocks of any nesting. The main statements: sums and products do not depend on
the order of the items (`dispatch_perm`), and a difference undoes a sum (`difference_undoes_sum`).
-/

namespace QuoteStack

open Decimal

namespace Value

/-- Items of a block without symbols have no symbols. -/
theorem hasSymbol_of_mem {items : List Value} (h : (block items).shape.hasSymbol = false) {v : Value}
    (hv : v ∈ items) : v.shape.hasSymbol = false := by
  simp only [shape, Shape.hasSymbol] at h
  induction items with
  | nil => exact absurd hv List.not_mem_nil
  | cons first rest ih =>
    simp only [shapeAll, Shape.anySymbol, Bool.or_eq_false_iff] at h
    rcases List.mem_cons.mp hv with rfl | hv
    · exact h.1
    · exact ih hv h.2

/-- Values of one shape that have no symbols, and the same numbers at all places, are the same. -/
theorem eq_of_numberAt? {v w : Value} (hsame : w.shape = v.shape)
    (hsymbols : v.shape.hasSymbol = false)
    (hnumbers : ∀ path x y, v.numberAt? path = some x → w.numberAt? path = some y → x = y) :
    v = w := by
  induction v generalizing w with
  | number x =>
    cases w with
    | number y => rw [hnumbers [] x y rfl rfl]
    | symbol y => cases hsame
    | block right => cases hsame
  | symbol x => cases hsymbols
  | block left ih =>
    cases w with
    | number y => cases hsame
    | symbol y => cases hsame
    | block right =>
      obtain ⟨hlength, hitems⟩ := List.forall₂_iff_get.mp (shape_block_eq_iff.mp hsame)
      refine congrArg block (List.ext_getElem hlength.symm fun i hi hi' => ?_)
      -- the places of an item are those of the block behind its index
      have hitem (items : List Value) (h : i < items.length) (path : List Nat) :
          (block items).numberAt? (i :: path) = items[i].numberAt? path := by
        simp only [numberAt?, List.getElem?_eq_getElem h, Option.bind_some]
      refine ih _ (List.getElem_mem hi) (hitems i hi' hi)
        (hasSymbol_of_mem hsymbols (List.getElem_mem hi)) fun path x y hx hy => ?_
      exact hnumbers (i :: path) x y ((hitem left hi path).trans hx) ((hitem right hi' path).trans hy)

end Value

namespace Operation

variable {operation : Operation}

/-! ## Order -/

/-- Sums and products do not depend on which number comes first, or on the order of the others. -/
theorem IsResult.perm (hoperation : operation = .sum ∨ operation = .product)
    {first first' x y : Decimal} {others others' : List Decimal}
    (hx : operation.IsResult first others x) (hy : operation.IsResult first' others' y)
    (hperm : (first :: others).Perm (first' :: others')) : x = y := by
  rcases hoperation with rfl | rfl
  · exact IsSum.perm hx hy hperm
  · exact IsProduct.perm hx hy hperm

/-- Dispatching an operator on a block of values of one shape without symbols has at each place the
exact result of the numbers there, if the folds of these numbers are exact. -/
theorem exists_dispatch_of_foldsExactly {name : String} {m : Machine} {shape : Shape}
    {first : Value} {others rest : List Value} (hoperation : operation ≠ .quotient)
    (hown : operation.Owns name m) (hstack : m.stack = .block (first :: others) :: rest)
    (hshape : ∀ v ∈ first :: others, v.shape = shape) (hsymbols : shape.hasSymbol = false)
    (hdepth : (m.root.depth : Int) + shape.need < m.root.limits.callLimit)
    (hexact : ∀ path,
      operation.FoldsExactly m.root.limits.toContext (Value.numbersAt path (first :: others))) :
    ∃ result calls, m.dispatch name = ⟨none, m.afterCalls name calls (result :: rest)⟩ ∧
      result.shape = shape ∧
      ∀ path z, result.numberAt? path = some z → ∃ x,
        Value.numbersAt path (first :: others) = x :: Value.numbersAt path others ∧
        operation.IsResult x (Value.numbersAt path others) z := by
  obtain ⟨hfirst, hothers⟩ := List.forall_mem_cons.mp hshape
  have hfold (path : List Nat) (x : Decimal) (hx : first.numberAt? path = some x) :
      ∃ z, (Value.numbersAt path others).foldlM
          (operation.ofNumbers m.root.limits.toContext) x = .ok z ∧
        operation.IsResult x (Value.numbersAt path others) z := by
    have hplace := hexact path
    rw [Value.numbersAt_cons others hx] at hplace
    exact hplace.exists_result hoperation
  obtain ⟨result, calls, hdispatch, hsame, hplaces⟩ := exists_dispatch hown hstack
    (fun v hv => (hothers v hv).trans hfirst.symm)
    ⟨hfirst ▸ hdepth, Or.inr (hfirst ▸ hsymbols)⟩
    fun path x hx => (hfold path x hx).imp fun _ => And.left
  refine ⟨result, calls, hdispatch, hsame.trans hfirst, fun path z hz => ?_⟩
  obtain ⟨x, hx⟩ := Value.exists_numberAt? hsame.symm hz
  -- both are the one fold of the numbers at this place
  obtain ⟨z₁, hz₁, hresult⟩ := hfold path x hx
  obtain ⟨z₂, hz₂, hplace⟩ := hplaces path x hx
  obtain rfl : z₁ = z₂ := Except.ok.inj (hz₁.symm.trans hz₂)
  obtain rfl : z₁ = z := Option.some.inj (hplace.symm.trans hz)
  exact ⟨x, Value.numbersAt_cons others hx, hresult⟩

/-- Dispatching an operator on a block of two values of one accepted shape has at each place the
result for the numbers there, if all these have one. -/
theorem exists_dispatch_pair {name : String} {m : Machine} {v w : Value} {rest : List Value}
    (hown : operation.Owns name m) (hstack : m.stack = .block [v, w] :: rest)
    (hsame : w.shape = v.shape) (haccepts : operation.Accepts m.root.limits m.root.depth v.shape)
    (hdefined : operation.DefinedOn m.root.limits.toContext v w) :
    ∃ result calls, m.dispatch name = ⟨none, m.afterCalls name calls (result :: rest)⟩ ∧
      result.shape = v.shape ∧ operation.IsPointwise m.root.limits.toContext v w result := by
  have hless := haccepts.depth_lt
  obtain ⟨calls, hdispatch⟩ := endsAs_dispatch hown hstack hless
  obtain ⟨result, hresult⟩ := exists_combine v w hsame haccepts hdefined
  have hpair := isCombination_of_combine v w result hless hresult
  refine ⟨result, calls, ?_, hpair.shape, hpair.numbers⟩
  rw [hdispatch, List.foldlM_cons, hresult]
  rfl

end Operation

/-- Where a name of the sum or of the product means its operator, dispatching it on a block of values
of one shape without symbols, nested not too deep, pushes the same value for every order of the
values, with the same signs, digits and exponents, if the numbers at each place are folded exactly in
both orders. -/
theorem dispatch_perm (operation : Operation) (name : String) (m : Machine) (shape : Shape)
    (items items' rest : List Value) (hoperation : operation = .sum ∨ operation = .product)
    (hname : name ∈ operation.names) (hown : m.find? name = Builtin.cells.lookup name)
    (hnonempty : items ≠ []) (hperm : items.Perm items')
    (hshape : ∀ v ∈ items, v.shape = shape) (hsymbols : shape.hasSymbol = false)
    (hdepth : (m.root.depth : Int) + shape.need < m.root.limits.callLimit)
    (hexact : ∀ path,
      operation.FoldsExactly m.root.limits.toContext (Value.numbersAt path items))
    (hexact' : ∀ path,
      operation.FoldsExactly m.root.limits.toContext (Value.numbersAt path items')) :
    ∃ result calls calls',
      Machine.dispatch { m with stack := .block items :: rest } name =
        ⟨none, m.afterCalls name calls (result :: rest)⟩ ∧
      Machine.dispatch { m with stack := .block items' :: rest } name =
        ⟨none, m.afterCalls name calls' (result :: rest)⟩ := by
  have howns : operation.Owns name m := hown.trans (operation.lookup_cells hname)
  have hexactly : operation ≠ .quotient := by
    rcases hoperation with rfl | rfl <;> nofun
  have hnonempty' : items' ≠ [] := by
    rintro rfl
    exact hnonempty hperm.eq_nil
  obtain ⟨first, others, rfl⟩ := List.exists_cons_of_ne_nil hnonempty
  obtain ⟨first', others', rfl⟩ := List.exists_cons_of_ne_nil hnonempty'
  obtain ⟨result, calls, hdispatch, hresult, hplaces⟩ :=
    Operation.exists_dispatch_of_foldsExactly
      (m := { m with stack := .block (first :: others) :: rest })
      hexactly howns rfl hshape hsymbols hdepth hexact
  obtain ⟨result', calls', hdispatch', hresult', hplaces'⟩ :=
    Operation.exists_dispatch_of_foldsExactly
      (m := { m with stack := .block (first' :: others') :: rest })
      hexactly howns rfl (fun v hv => hshape v (hperm.mem_iff.mpr hv)) hsymbols hdepth hexact'
  obtain rfl : result = result' := by
    refine Value.eq_of_numberAt? (hresult'.trans hresult.symm) (hresult ▸ hsymbols) ?_
    intro path z z' hz hz'
    obtain ⟨x, hx, hxz⟩ := hplaces path z hz
    obtain ⟨x', hx', hxz'⟩ := hplaces' path z' hz'
    -- the numbers at a place are in another order too
    have hnumbers := hperm.filterMap (Value.numberAt? path)
    refine hxz.perm hoperation hxz' ?_
    rw [← hx, ← hx']
    exact hnumbers
  exact ⟨result, calls, calls', hdispatch, hdispatch'⟩

/-- A product of blocks whose items at one place are zeros of both signs. -/
theorem dispatch_perm_product_of_blocks :
    let first : Value := .block [.number ⟨false, 2, 0⟩, .block [.number ⟨true, 0, 0⟩]]
    let second : Value := .block [.number ⟨false, 5, -1⟩, .block [.number ⟨false, 30, -1⟩]]
    let m := Machine.new {}
    (Operation.product = .sum ∨ Operation.product = .product) ∧
      "mul" ∈ Operation.product.names ∧ m.find? "mul" = Builtin.cells.lookup "mul" ∧
      [first, second] ≠ [] ∧ [first, second].Perm [second, first] ∧
      (∀ v ∈ [first, second], v.shape = first.shape) ∧ first.shape.hasSymbol = false ∧
      (m.root.depth : Int) + first.shape.need < m.root.limits.callLimit ∧
      (∀ path, Operation.product.FoldsExactly m.root.limits.toContext
        (Value.numbersAt path [first, second])) ∧
      (∀ path, Operation.product.FoldsExactly m.root.limits.toContext
        (Value.numbersAt path [second, first])) ∧
      ∃ result calls calls',
        Machine.dispatch { m with stack := .block [first, second] :: [.symbol "rest"] } "mul" =
          ⟨none, m.afterCalls "mul" calls [result, .symbol "rest"]⟩ ∧
        Machine.dispatch { m with stack := .block [second, first] :: [.symbol "rest"] } "mul" =
          ⟨none, m.afterCalls "mul" calls' [result, .symbol "rest"]⟩ := by
  intro first second m
  have hname : "mul" ∈ Operation.product.names := by decide
  have hnonempty : [first, second] ≠ [] := nofun
  have hperm : [first, second].Perm [second, first] := .swap second first []
  have hshape : ∀ v ∈ [first, second], v.shape = first.shape := by
    intro v hv
    rcases List.mem_pair.mp hv with rfl | rfl <;> rfl
  have hdepth : (m.root.depth : Int) + first.shape.need < m.root.limits.callLimit := by decide
  have hoperation : Operation.product ≠ .quotient := nofun
  -- the places are the first item and the item of the second
  have hexact : ∀ path,
      Operation.product.FoldsExactly m.root.limits.toContext
          (Value.numbersAt path [first, second]) ∧
        Operation.product.FoldsExactly m.root.limits.toContext
          (Value.numbersAt path [second, first]) := by
    rintro (_ | ⟨_ | _ | i, _ | ⟨_ | j, _ | ⟨k, path⟩⟩⟩)
    case cons.zero.nil =>
      constructor <;> refine Operation.foldsExactly_of_spanAll hoperation ?_ ?_ <;> decide
    case cons.succ.zero.cons.zero.nil =>
      constructor <;> refine Operation.foldsExactly_of_spanAll hoperation ?_ ?_ <;> decide
    all_goals exact ⟨.nil, .nil⟩
  obtain ⟨hexact, hexact'⟩ := forall_and.mp hexact
  exact ⟨.inr rfl, hname, rfl, hnonempty, hperm, hshape, rfl, hdepth, hexact, hexact',
    dispatch_perm .product "mul" m first.shape [first, second] [second, first] [.symbol "rest"]
      (.inr rfl) hname rfl hnonempty hperm hshape rfl hdepth hexact hexact'⟩

/-- Two large numbers and the opposite of one of them have a sum in one order, but the first two have
none. -/
theorem dispatch_sum_overflows_in_one_order :
    let large : Decimal := ⟨false, 9, 999999999999999999⟩
    let items : List Value := [.number large, .number large, .number large.neg]
    let items' : List Value := [.number large, .number large.neg, .number large]
    let m := Machine.new {}
    m.find? "sum" = Builtin.cells.lookup "sum" ∧ items.Perm items' ∧
      (∀ v ∈ items, v.shape = .number) ∧ (m.root.depth : Int) < m.root.limits.maxDepth ∧
      (Machine.dispatch { m with stack := [.block items] } "sum").fault? =
        some (.external (.arithmetic .overflow)) ∧
      Machine.dispatch { m with stack := [.block items'] } "sum" =
        ⟨none, m.afterCalls "sum" 1 [.number large]⟩ := by
  refine ⟨rfl, .cons _ (.swap _ _ _), ?_, by decide, rfl, rfl⟩
  simp only [List.forall_mem_cons]
  exact ⟨rfl, rfl, rfl, fun _ h => absurd h List.not_mem_nil⟩

/-- Where the names of the sum and of the difference mean their operators, the difference of the sum
of two values and the second value stands for the first one: if they have one shape without symbols,
nested not too deep, and there are sums of the numbers at all places, then the result has that shape
and at each place a number equal to that of the first value, with the lesser of both exponents. -/
theorem difference_undoes_sum (add subtract : String) (m : Machine) (x y : Value)
    (hadd : add ∈ Operation.sum.names) (hsubtract : subtract ∈ Operation.difference.names)
    (hown : m.find? add = Builtin.cells.lookup add)
    (hown' : m.find? subtract = Builtin.cells.lookup subtract)
    (hsame : y.shape = x.shape) (hsymbols : x.shape.hasSymbol = false)
    (hdepth : (m.root.depth : Int) + x.shape.need < m.root.limits.callLimit)
    (hstored : ∀ v ∈ [x, y], ∀ path a, v.numberAt? path = some a → a.IsStored)
    (hsums : ∀ path a b, x.numberAt? path = some a → y.numberAt? path = some b →
      ∃ c, a.storedSum m.root.limits.memory b = .ok c) :
    ∃ total result calls calls',
      m.call add [.block [x, y]] = ⟨none, m.afterCalls add calls (total :: m.stack)⟩ ∧
      (m.afterCalls add calls m.stack).call subtract [.block [total, y]] =
        ⟨none, (m.afterCalls add calls m.stack).afterCalls subtract calls' (result :: m.stack)⟩ ∧
      result.shape = x.shape ∧
      ∀ path a b, x.numberAt? path = some a → y.numberAt? path = some b →
        ∃ c, result.numberAt? path = some c ∧ c.toRat = a.toRat ∧
          c.exponent = min a.exponent b.exponent := by
  have howns : Operation.sum.Owns add m := hown.trans (Operation.sum.lookup_cells hadd)
  have howns' : Operation.difference.Owns subtract m :=
    hown'.trans (Operation.difference.lookup_cells hsubtract)
  obtain ⟨total, calls, htotal, hshape, htotals⟩ :=
    Operation.exists_dispatch_pair (m := m.push (.block [x, y])) howns rfl hsame
      ⟨hdepth, Or.inl rfl⟩ hsums
  have hundo : ∀ path a b, x.numberAt? path = some a → y.numberAt? path = some b →
      ∃ c d, total.numberAt? path = some c ∧
        c.storedDifference m.root.limits.memory b = .ok d ∧ d.toRat = a.toRat ∧
        d.exponent = min a.exponent b.exponent := by
    intro path a b ha hb
    obtain ⟨c, hsum, hc⟩ := htotals path a b ha hb
    obtain ⟨hdifference, hvalue, hexponent⟩ := storedDifference_of_storedSum
      (hstored x (by simp) path a ha) (hstored y (by simp) path b hb) hsum
    exact ⟨c, c.sub b, hc, hdifference, hvalue, hexponent⟩
  have hdifferences : ∀ path c b, total.numberAt? path = some c → y.numberAt? path = some b →
      ∃ d, c.storedDifference m.root.limits.memory b = .ok d := by
    intro path c b hc hb
    obtain ⟨a, ha⟩ := Value.exists_numberAt? hshape.symm hc
    obtain ⟨c', d, hc', hd, -⟩ := hundo path a b ha hb
    obtain rfl : c = c' := Option.some.inj (hc.symm.trans hc')
    exact ⟨d, hd⟩
  obtain ⟨result, calls', hresult, hshape', hresults⟩ :=
    Operation.exists_dispatch_pair
      (m := (m.afterCalls add calls m.stack).push (.block [total, y])) howns' rfl
      (hsame.trans hshape.symm) ⟨hshape ▸ hdepth, Or.inr (hshape ▸ hsymbols)⟩ hdifferences
  refine ⟨total, result, calls, calls', htotal, hresult, hshape'.trans hshape, ?_⟩
  intro path a b ha hb
  obtain ⟨c, d, hc, hd, hvalue, hexponent⟩ := hundo path a b ha hb
  obtain ⟨d', hd', hplace⟩ := hresults path c b hc hb
  obtain rfl : d = d' := Except.ok.inj (hd.symm.trans hd')
  exact ⟨d, hplace, hvalue, hexponent⟩

/-- From the sum of two blocks the first one comes back, with more digits after the point. -/
theorem difference_undoes_sum_of_blocks :
    let x : Value := .block [.number ⟨false, 1, 0⟩, .block [.number ⟨true, 15, -1⟩]]
    let y : Value := .block [.number ⟨false, 25, -2⟩, .block [.number ⟨false, 15, -1⟩]]
    let m : Machine := { Machine.new {} with stack := [.symbol "rest"] }
    "add" ∈ Operation.sum.names ∧ "subtract" ∈ Operation.difference.names ∧
      m.find? "add" = Builtin.cells.lookup "add" ∧
      m.find? "subtract" = Builtin.cells.lookup "subtract" ∧
      y.shape = x.shape ∧ x.shape.hasSymbol = false ∧
      (m.root.depth : Int) + x.shape.need < m.root.limits.callLimit ∧
      (∀ v ∈ [x, y], ∀ path a, v.numberAt? path = some a → a.IsStored) ∧
      (∀ path a b, x.numberAt? path = some a → y.numberAt? path = some b →
        ∃ c, a.storedSum m.root.limits.memory b = .ok c) ∧
      ∃ total result calls calls',
        m.call "add" [.block [x, y]] = ⟨none, m.afterCalls "add" calls [total, .symbol "rest"]⟩ ∧
        (m.afterCalls "add" calls m.stack).call "subtract" [.block [total, y]] =
          ⟨none, (m.afterCalls "add" calls m.stack).afterCalls "subtract" calls'
            [result, .symbol "rest"]⟩ ∧
        result.shape = x.shape ∧
        ∀ path a b, x.numberAt? path = some a → y.numberAt? path = some b →
          ∃ c, result.numberAt? path = some c ∧ c.toRat = a.toRat ∧
            c.exponent = min a.exponent b.exponent := by
  intro x y m
  have hadd : "add" ∈ Operation.sum.names := by decide
  have hsubtract : "subtract" ∈ Operation.difference.names := by decide
  have hdepth : (m.root.depth : Int) + x.shape.need < m.root.limits.callLimit := by decide
  -- the places are the first item and the item of the second
  have hstored : ∀ v ∈ [x, y], ∀ path a, v.numberAt? path = some a → a.IsStored := by
    intro v hv path a
    rcases List.mem_pair.mp hv with rfl | rfl <;>
      rcases path with _ | ⟨_ | _ | i, _ | ⟨_ | j, _ | ⟨k, path⟩⟩⟩ <;> rintro ⟨⟩ <;> rfl
  have hsums : ∀ path a b, x.numberAt? path = some a → y.numberAt? path = some b →
      ∃ c, a.storedSum m.root.limits.memory b = .ok c := by
    intro path a b
    rcases path with _ | ⟨_ | _ | i, _ | ⟨_ | j, _ | ⟨k, path⟩⟩⟩ <;> rintro ⟨⟩ ⟨⟩ <;>
      exact ⟨_, storedSum_of_span (by decide) (by decide)⟩
  exact ⟨hadd, hsubtract, rfl, rfl, rfl, rfl, hdepth, hstored, hsums,
    difference_undoes_sum "add" "subtract" m x y hadd hsubtract rfl rfl rfl rfl hdepth hstored
      hsums⟩

/-- Two large numbers have no sum from which the first one could come back. -/
theorem call_add_of_large_numbers :
    let large : Decimal := ⟨false, 9, 999999999999999999⟩
    let x : Value := .number large
    let m := Machine.new {}
    m.find? "add" = Builtin.cells.lookup "add" ∧
      m.find? "subtract" = Builtin.cells.lookup "subtract" ∧ x.shape = .number ∧
      large.IsStored ∧ (m.root.depth : Int) < m.root.limits.maxDepth ∧
      (m.call "add" [.block [x, x]]).fault? = some (.external (.arithmetic .overflow)) :=
  ⟨rfl, rfl, rfl, rfl, by decide, rfl⟩

end QuoteStack

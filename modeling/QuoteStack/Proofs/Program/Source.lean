import QuoteStack.Program
import QuoteStack.Proofs.Token.Lexeme

/-!
Program texts. The values that can stand in a program text are literals: unsigned numbers without a
positive exponent, words, and blocks of literals. Reading gives programs of literals only, and every
such program is written as a text that is read back to it: each lexeme is scanned apart from what
stands around it, and writing each level backwards undoes that levels are stored in reverse order of
reading.
-/

namespace QuoteStack

/-- A value that can stand in a program text. -/
inductive Value.IsLiteral : Value → Prop where
  | number {n : Decimal} (unsigned : n.negative = false) (exponent : n.exponent ≤ 0)
      (stored : Decimal.Range.stored.contains n = true) : IsLiteral (.number n)
  | symbol {name : String} (word : Token.IsWord name.toList) : IsLiteral (.symbol name)
  | block {items : List Value} (items_literal : ∀ v ∈ items, IsLiteral v) : IsLiteral (.block items)

namespace Value

theorem isLiteral_number_iff {n : Decimal} :
    (Value.number n).IsLiteral ↔
      n.negative = false ∧ n.exponent ≤ 0 ∧ Decimal.Range.stored.contains n = true := by
  refine ⟨fun h => ?_, fun h => .number h.1 h.2.1 h.2.2⟩
  cases h with
  | number unsigned exponent stored => exact ⟨unsigned, exponent, stored⟩

theorem isLiteral_symbol_iff {name : String} :
    (Value.symbol name).IsLiteral ↔ Token.IsWord name.toList := by
  refine ⟨fun h => ?_, .symbol⟩
  cases h with
  | symbol word => exact word

theorem isLiteral_block_iff {items : List Value} :
    (Value.block items).IsLiteral ↔ ∀ v ∈ items, v.IsLiteral := by
  refine ⟨fun h => ?_, .block⟩
  cases h with
  | block items_literal => exact items_literal

mutual

/-- Whether a value is a literal can be told from its numbers and its symbols. -/
def decideLiteral : (v : Value) → Decidable v.IsLiteral
  | .number _ => decidable_of_iff _ isLiteral_number_iff.symm
  | .symbol _ => decidable_of_iff _ isLiteral_symbol_iff.symm
  | .block items => @decidable_of_iff _ _ isLiteral_block_iff.symm (decideLiteralAll items)

/-- Whether all values of a row are literals. -/
def decideLiteralAll : (items : List Value) → Decidable (∀ v ∈ items, v.IsLiteral)
  | [] => isTrue nofun
  | v :: rest =>
    @decidable_of_iff _ _ List.forall_mem_cons.symm
      (@instDecidableAnd _ _ (decideLiteral v) (decideLiteralAll rest))

end

instance : DecidablePred Value.IsLiteral := decideLiteral

end Value

mutual

/-- The text of a value, with a gap between the items of a block: a number in plain positional
notation with all its digits, a symbol as it is, a block between marks. -/
def Value.write (gap : List Char) : Value → List Char
  | .number n => Decimal.positional (Nat.toDigits 10 n.coefficient) (-n.exponent).toNat
  | .symbol name => name.toList
  | .block items => Token.openMark :: (Value.writeAll gap items ++ [Token.closeMark])

/-- The texts of values in reverse order, with a gap between them. -/
def Value.writeAll (gap : List Char) : List Value → List Char
  | [] => []
  | [v] => v.write gap
  | v :: next :: rest => Value.writeAll gap (next :: rest) ++ (gap ++ v.write gap)

end

namespace Program

open Token (tokensFrom IsLexeme)

/-! ## Reading gives literals -/

theorem isLiteral_closeAll {current : List Value} {levels : List (List Value)}
    (hcurrent : ∀ v ∈ current, v.IsLiteral) (hlevels : ∀ level ∈ levels, ∀ v ∈ level, v.IsLiteral) :
    ∀ v ∈ closeAll .values current levels, v.IsLiteral := by
  induction levels generalizing current with
  | nil => exact hcurrent
  | cons outer more ih =>
    refine ih (fun v hv => ?_) fun level hlevel => hlevels level (List.mem_cons_of_mem _ hlevel)
    rcases List.mem_cons.mp hv with rfl | hv
    · exact .block hcurrent
    · exact hlevels outer List.mem_cons_self v hv

/-- A number token of a text is a literal number, unless it is too long to be stored. -/
theorem isLiteral_of_isNumeral {text : String} {whole fraction : List Char}
    (hnumeral : Decimal.IsNumeral whole fraction)
    (htext : text.toList = Decimal.numeral whole fraction) :
    Decimal.ofText? text = some (Decimal.ofNumeral whole fraction) ∧
      (Decimal.Range.stored.contains (Decimal.ofNumeral whole fraction) = true →
        (Value.number (Decimal.ofNumeral whole fraction)).IsLiteral) := by
  refine ⟨?_, fun hstored => .number rfl ?_ hstored⟩
  · rw [Decimal.ofText?, htext]
    exact hnumeral.ofChars?_eq
  · show -(fraction.length : Int) ≤ 0
    omega

/-- What reading a token does to the values of the current level and of the levels around it. -/
inductive Takes (token : Token) :
    List Value → List (List Value) → List Value → List (List Value) → Prop where
  | number {whole fraction : List Char} {current : List Value} {levels : List (List Value)}
      (hnumeral : Decimal.IsNumeral whole fraction)
      (htext : token.text.toList = Decimal.numeral whole fraction)
      (hliteral : (Value.number (.ofNumeral whole fraction)).IsLiteral) :
      Takes token current levels (.number (.ofNumeral whole fraction) :: current) levels
  | word {current : List Value} {levels : List (List Value)}
      (hword : Token.IsWord token.text.toList) :
      Takes token current levels (.symbol token.text :: current) levels
  | quoteOpen {current : List Value} {levels : List (List Value)} :
      Takes token current levels [] (current :: levels)
  | quoteClose {current outer : List Value} {more : List (List Value)} :
      Takes token current (outer :: more) (.block current :: outer) more
  | nothing {current : List Value} {levels : List (List Value)} :
      Takes token current levels current levels

/-- A token of a text is taken and reading goes on, or it is a number that is too long to be stored,
or a closing mark that ends the program. -/
theorem readFrom_lexeme {token : Token} (hlexeme : IsLexeme token.kind token.text.toList)
    (rest : List Token) (current : List Value) (levels : List (List Value)) :
    (∃ current' levels', Takes token current levels current' levels' ∧
      readFrom .values current levels (token :: rest) = readFrom .values current' levels' rest) ∨
    (readFrom .values current levels (token :: rest) = .error .numberOutOfRange ∧
      Decimal.storableLength < token.text.toList.length) ∨
    ∃ warning?, readFrom .values current levels (token :: rest) = .ok ⟨current, rest, warning?⟩ := by
  rw [readFrom.eq_def]
  dsimp only
  cases hkind : token.kind with
  | number =>
    rw [hkind] at hlexeme
    obtain ⟨whole, fraction, hnumeral, htext⟩ := hlexeme
    obtain ⟨hvalue, hliteral⟩ := isLiteral_of_isNumeral hnumeral htext
    rw [Builder.values_number hvalue]
    by_cases hstored : Decimal.Range.stored.contains (.ofNumeral whole fraction) = true
    · rw [store_of_contains hstored]
      exact Or.inl ⟨_, _, .number hnumeral htext (hliteral hstored), rfl⟩
    · rw [store_of_not_contains hstored]
      -- a numeral is stored unless it is longer than any that can be
      refine Or.inr (Or.inl ⟨rfl, Nat.lt_of_not_le fun hshort => ?_⟩)
      rw [htext] at hshort
      exact hstored (hnumeral.contains_ofNumeral hshort)
  | word =>
    rw [hkind] at hlexeme
    exact Or.inl ⟨_, _, .word hlexeme, rfl⟩
  | quoteOpen => exact Or.inl ⟨_, _, .quoteOpen, rfl⟩
  | quoteClose =>
    cases levels with
    | nil => exact Or.inr (Or.inr ⟨_, rfl⟩)
    | cons outer more => exact Or.inl ⟨_, _, .quoteClose, rfl⟩
  | blank => exact Or.inl ⟨_, _, .nothing, rfl⟩
  | other name => exact Or.inl ⟨_, _, .nothing, rfl⟩

/-- Where all values are literals, taking a token leaves literals. -/
theorem Takes.isLiteral {token : Token} {current current' : List Value}
    {levels levels' : List (List Value)} (h : Takes token current levels current' levels')
    (hcurrent : ∀ v ∈ current, v.IsLiteral) (hlevels : ∀ level ∈ levels, ∀ v ∈ level, v.IsLiteral) :
    (∀ v ∈ current', v.IsLiteral) ∧ ∀ level ∈ levels', ∀ v ∈ level, v.IsLiteral := by
  cases h with
  | number _ _ hliteral => exact ⟨List.forall_mem_cons.mpr ⟨hliteral, hcurrent⟩, hlevels⟩
  | word hword => exact ⟨List.forall_mem_cons.mpr ⟨.symbol hword, hcurrent⟩, hlevels⟩
  | quoteOpen =>
    exact ⟨fun v hv => absurd hv List.not_mem_nil, List.forall_mem_cons.mpr ⟨hcurrent, hlevels⟩⟩
  | quoteClose =>
    obtain ⟨houter, hmore⟩ := List.forall_mem_cons.mp hlevels
    exact ⟨List.forall_mem_cons.mpr ⟨.block hcurrent, houter⟩, hmore⟩
  | nothing => exact ⟨hcurrent, hlevels⟩

/-- From the tokens of a text, only literals are read, and the only fault is a number that is too
long to be stored. -/
theorem isLiteral_readFrom (tokens : List Token) (current : List Value) (levels : List (List Value))
    (htokens : ∀ token ∈ tokens, IsLexeme token.kind token.text.toList)
    (hcurrent : ∀ v ∈ current, v.IsLiteral) (hlevels : ∀ level ∈ levels, ∀ v ∈ level, v.IsLiteral) :
    match readFrom .values current levels tokens with
    | .ok reading => ∀ v ∈ reading.program, v.IsLiteral
    | .error fault => fault = .numberOutOfRange ∧
        ∃ token ∈ tokens, Decimal.storableLength < token.text.toList.length := by
  induction tokens generalizing current levels with
  | nil =>
    rw [readFrom]
    exact isLiteral_closeAll hcurrent hlevels
  | cons token rest ih =>
    obtain ⟨hlexeme, hrest⟩ := List.forall_mem_cons.mp htokens
    rcases readFrom_lexeme hlexeme rest current levels with
      ⟨current', levels', htakes, heq⟩ | ⟨heq, hlong⟩ | ⟨warning?, heq⟩
    · obtain ⟨hcurrent', hlevels'⟩ := htakes.isLiteral hcurrent hlevels
      have hread := ih current' levels' hrest hcurrent' hlevels'
      rw [heq]
      cases hresult : readFrom .values current' levels' rest with
      | ok reading =>
        rw [hresult] at hread
        exact hread
      | error fault =>
        rw [hresult] at hread
        obtain ⟨hfault, other, hother, hlong⟩ := hread
        exact ⟨hfault, other, List.mem_cons_of_mem _ hother, hlong⟩
    · rw [heq]
      exact ⟨rfl, token, List.mem_cons_self, hlong⟩
    · rw [heq]
      -- a mark that closes nothing ends the program with what has been read
      exact hcurrent

/-- From a text, only literals are read, and the only fault is a number of more digits than can be
stored. -/
theorem isLiteral_ofSource (source : String) :
    match ofSource source with
    | .ok reading => ∀ v ∈ reading.program, v.IsLiteral
    | .error fault => fault = .numberOutOfRange ∧ Decimal.storableLength < source.length := by
  have hread := isLiteral_readFrom (Token.scan source) [] []
    (fun token htoken => (Token.isLexeme_of_mem htoken).1)
    (fun v hv => absurd hv List.not_mem_nil) fun level hlevel => absurd hlevel List.not_mem_nil
  rw [ofSource]
  cases hresult : readFrom .values [] [] (Token.scan source) with
  | ok reading =>
    rw [hresult] at hread
    exact hread
  | error fault =>
    rw [hresult] at hread
    obtain ⟨hfault, token, htoken, hlong⟩ := hread
    have hlength := (Token.isLexeme_of_mem htoken).2
    rw [String.length_toList] at hlength
    exact ⟨hfault, Nat.lt_of_lt_of_le hlong hlength⟩

/-! ## Reading what is written -/

/-- What may follow the text of a value: the end of the text, a blank or a closing mark. -/
def IsBoundary (after : List Char) : Prop :=
  ∀ c, after.head? = some c → Text.isBlank c = true ∨ c = Token.closeMark

/-- Nothing behind a boundary extends a word or a number. -/
theorem IsBoundary.not_lexical {after : List Char} (h : IsBoundary after) {c : Char}
    (hc : after.head? = some c) :
    Token.isWordChar c = false ∧ c.isDigit = false ∧ c ≠ '.' := by
  rcases h c hc with hblank | rfl
  · obtain ⟨hword, hdigit, hpoint, -⟩ := Token.not_lexical_of_isBlank hblank
    exact ⟨hword, hdigit, hpoint⟩
  · decide

section
variable {gap : List Char}

/-- The text of a literal starts with a character that is no blank. -/
theorem exists_head_write {v : Value} (hv : v.IsLiteral) (gap : List Char) :
    ∃ c rest, v.write gap = c :: rest ∧ Text.isBlank c = false := by
  cases hv with
  | @number n hunsigned hexponent _ =>
    obtain ⟨whole, fraction, hnumeral, htext, -⟩ :=
      Decimal.exists_numeral_of_nonneg n hunsigned hexponent
    obtain ⟨c, others, rfl⟩ := List.exists_cons_of_ne_nil hnumeral.nonempty
    have hblank := Decimal.not_isBlank_of_isDigit (hnumeral.whole_digits c List.mem_cons_self)
    rw [Value.write, htext, Decimal.numeral]
    split <;> exact ⟨c, _, rfl, hblank⟩
  | @symbol name hword =>
    rw [Value.write]
    generalize name.toList = text at hword
    match text, hword with
    | first :: second :: rest, hword =>
      exact ⟨first, second :: rest, rfl, Token.not_isBlank_of_isSymbolChar hword.1⟩
  | block _ =>
    rw [Value.write]
    exact ⟨_, _, rfl, by decide⟩

/-- A whole run of blanks is one token, and does not count. -/
theorem readFrom_run {run behind : List Char} (hrun : ∀ c ∈ run, Text.isBlank c = true)
    (hbehind : ∀ c, behind.head? = some c → Text.isBlank c = false) (start : Nat)
    (current : List Value) (levels : List (List Value)) :
    readFrom .values current levels (tokensFrom start (run ++ behind)) =
      readFrom .values current levels (tokensFrom (start + run.length) behind) := by
  cases run with
  | nil => rfl
  | cons c more =>
    have hhead := Token.headToken?_blank (hrun c List.mem_cons_self)
      (fun d hd => hrun d (List.mem_cons_of_mem _ hd)) hbehind
    rw [List.cons_append, Token.tokensFrom_cons hhead, readFrom.eq_def]
    rfl

/-- A gap before the text of a literal does not count. -/
theorem readFrom_gap (hblank : ∀ c ∈ gap, Text.isBlank c = true) {v : Value} (hv : v.IsLiteral)
    (after : List Char) (start : Nat) (current : List Value) (levels : List (List Value)) :
    readFrom .values current levels (tokensFrom start (gap ++ (v.write gap ++ after))) =
      readFrom .values current levels (tokensFrom (start + gap.length) (v.write gap ++ after)) := by
  obtain ⟨d, rest, htext, hd⟩ := exists_head_write hv gap
  refine readFrom_run hblank (fun e he => ?_) start current levels
  rw [htext] at he
  obtain rfl : d = e := Option.some.inj he
  exact hd

/-- The value is read from its text, wherever that stands, and the rest is read after it. -/
def ReadsBack (gap : List Char) (v : Value) : Prop :=
  ∀ (after : List Char) (start : Nat) (current : List Value) (levels : List (List Value)),
    IsBoundary after →
      readFrom .values current levels (tokensFrom start (v.write gap ++ after)) =
        readFrom .values (v :: current) levels (tokensFrom (start + (v.write gap).length) after)

/-- Values written one after the other are read into the order in which they are stored. -/
theorem readFrom_writeAll (hgap : gap ≠ []) (hblank : ∀ c ∈ gap, Text.isBlank c = true)
    (items : List Value) (hitems : ∀ v ∈ items, v.IsLiteral ∧ ReadsBack gap v) (after : List Char)
    (start : Nat) (current : List Value) (levels : List (List Value)) (hafter : IsBoundary after) :
    readFrom .values current levels (tokensFrom start (Value.writeAll gap items ++ after)) =
      readFrom .values (items ++ current) levels
        (tokensFrom (start + (Value.writeAll gap items).length) after) := by
  match items, hitems with
  | [], _ => rfl
  | [v], hitems => exact (hitems v List.mem_cons_self).2 after start current levels hafter
  | v :: next :: rest, hitems =>
    obtain ⟨⟨hv, hread⟩, hrest⟩ := List.forall_mem_cons.mp hitems
    -- a gap stands behind the values that are written first, and is a boundary
    have hbound : IsBoundary (gap ++ (v.write gap ++ after)) := by
      intro c hc
      obtain ⟨d, more, rfl⟩ := List.exists_cons_of_ne_nil hgap
      obtain rfl : d = c := Option.some.inj hc
      exact Or.inl (hblank d List.mem_cons_self)
    rw [Value.writeAll, List.append_assoc, List.append_assoc,
      readFrom_writeAll hgap hblank (next :: rest) hrest _ start current levels hbound,
      readFrom_gap hblank hv, hread after _ _ levels hafter]
    simp only [List.length_append, List.cons_append, Nat.add_assoc]

/-- A literal is read back from its text, however it is nested. -/
theorem readsBack_of_isLiteral (hgap : gap ≠ []) (hblank : ∀ c ∈ gap, Text.isBlank c = true)
    {v : Value} (hv : v.IsLiteral) : ReadsBack gap v := by
  intro after start current levels hafter
  induction hv generalizing after start current levels with
  | @number n hunsigned hexponent hstored =>
    obtain ⟨whole, fraction, hnumeral, htext, hvalue⟩ :=
      Decimal.exists_numeral_of_nonneg n hunsigned hexponent
    obtain ⟨c, more, htokens⟩ : ∃ c more, Decimal.numeral whole fraction = c :: more := by
      obtain ⟨c, others, rfl⟩ := List.exists_cons_of_ne_nil hnumeral.nonempty
      rw [Decimal.numeral]
      split <;> exact ⟨c, _, rfl⟩
    have hhead : Token.headToken? c (more ++ after) = some (.number, more) :=
      Token.headToken?_number hnumeral htokens.symm fun d hd => (hafter.not_lexical hd).2
    have hnumber : Decimal.ofText? (String.ofList (c :: more)) = some n := by
      rw [Decimal.ofText?, String.toList_ofList, ← htokens, hnumeral.ofChars?_eq, hvalue]
    rw [Value.write, htext, htokens, List.cons_append, Token.tokensFrom_cons hhead,
      readFrom.eq_def]
    simp only [Builder.values_number hnumber, store_of_contains hstored, Except.map,
      List.length_cons, Nat.add_assoc]
  | @symbol name hword =>
    obtain ⟨c, more, htext⟩ : ∃ c more, name.toList = c :: more := by
      match name.toList, hword with
      | c :: more, _ => exact ⟨c, more, rfl⟩
    rw [htext] at hword
    have hhead : Token.headToken? c (more ++ after) = some (.word, more) :=
      Token.headToken?_word hword fun d hd => (hafter.not_lexical hd).1
    rw [Value.write, htext, List.cons_append, Token.tokensFrom_cons hhead, readFrom.eq_def]
    simp only [← htext, String.ofList_toList, Builder.values_symbol]
    simp only [htext, List.length_cons, Nat.add_assoc]
  | @block items hliteral ih =>
    have hbound : IsBoundary (Token.closeMark :: after) := fun c hc =>
      Or.inr (Option.some.inj hc).symm
    have hitems : ∀ v ∈ items, v.IsLiteral ∧ ReadsBack gap v := fun v hv =>
      ⟨hliteral v hv, fun after start current levels => ih v hv after start current levels⟩
    rw [Value.write, List.cons_append, List.append_assoc, List.singleton_append]
    -- the opening mark starts a level, and the closing mark stores it as the block
    rw [Token.tokensFrom_openMark, readFrom.eq_def]
    dsimp only
    rw [readFrom_writeAll hgap hblank items hitems _ _ [] _ hbound, List.append_nil,
      Token.tokensFrom_closeMark, readFrom.eq_def]
    simp only [List.length_cons, List.length_append, List.length_nil, Builder.values_block]
    congr 2
    omega

end

/-- A program of literals is read back from its text. -/
theorem ofSource_writeAll {gap : List Char} (hgap : gap ≠ [])
    (hblank : ∀ c ∈ gap, Text.isBlank c = true) {program : List Value}
    (hprogram : ∀ v ∈ program, v.IsLiteral) :
    ofSource (String.ofList (Value.writeAll gap program)) = .ok ⟨program, [], none⟩ := by
  have hread := readFrom_writeAll hgap hblank program
    (fun v hv => ⟨hprogram v hv, readsBack_of_isLiteral hgap hblank (hprogram v hv)⟩) [] 0 [] []
    fun c hc => by cases hc
  rw [List.append_nil, List.append_nil, Token.tokensFrom_nil, readFrom] at hread
  rw [ofSource, Token.scan, String.toList_ofList]
  exact hread

/-- A text is read as the literals that it is made of, with a blank between each two. -/
theorem ofSource_of_text {source : String} {program : List Value}
    (hprogram : ∀ v ∈ program, v.IsLiteral)
    (htext : Value.writeAll [' '] program = source.toList) :
    ofSource source = .ok ⟨program, [], none⟩ := by
  have hblank : ∀ c ∈ [' '], Text.isBlank c = true := List.forall_mem_singleton.mpr (by decide)
  have hread := ofSource_writeAll (List.cons_ne_nil _ _) hblank hprogram
  rwa [htext, String.ofList_toList] at hread

/-- Reading a program text gives a program of literals. The one exception is a text of more than
`storableLength` characters with a number of too many digits to be stored: no memory holds such a
text. Every program of literals is read back from its text, whatever blanks stand between the
values, with no warning and nothing left unread. -/
theorem ofSource_literals :
    (∀ source : String,
      match ofSource source with
      | .ok reading => ∀ v ∈ reading.program, v.IsLiteral
      | .error fault => fault = .numberOutOfRange ∧ Decimal.storableLength < source.length) ∧
    ∀ gap : List Char, gap ≠ [] → (∀ c ∈ gap, Text.isBlank c = true) →
      ∀ program : List Value, (∀ v ∈ program, v.IsLiteral) →
        ofSource (String.ofList (Value.writeAll gap program)) = .ok ⟨program, [], none⟩ :=
  ⟨isLiteral_ofSource, fun _ hgap hblank _ hprogram => ofSource_writeAll hgap hblank hprogram⟩

/-- Zeros at the end of a number, an empty block and blanks of several kinds are no trouble. -/
theorem ofSource_literals_sum_of_block :
    let gap : List Char := [' ', '\n']
    let program : List Value :=
      [.block [.symbol "x1", .block [], .number ⟨false, 50, -2⟩], .symbol "sum"]
    gap ≠ [] ∧ (∀ c ∈ gap, Text.isBlank c = true) ∧ (∀ v ∈ program, v.IsLiteral) ∧
      Value.writeAll gap program = "sum \n\x7b0.50 \n\x7b\x7d \nx1\x7d".toList ∧
      ofSource (String.ofList (Value.writeAll gap program)) = .ok ⟨program, [], none⟩ := by
  intro gap program
  have hgap : gap ≠ [] := by decide
  have hblank : ∀ c ∈ gap, Text.isBlank c = true := List.all_eq_true.mp (by decide)
  have hprogram : ∀ v ∈ program, v.IsLiteral := by decide
  exact ⟨hgap, hblank, hprogram, by decide, ofSource_literals.2 gap hgap hblank program hprogram⟩

end Program

end QuoteStack

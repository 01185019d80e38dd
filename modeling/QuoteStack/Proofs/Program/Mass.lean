import QuoteStack.Proofs.Arithmetic.Mass
import QuoteStack.Proofs.Program.Source

/-!
How heavy programs are. A program weighs no more than the characters of its text, each with a margin,
since each number spans no more digits than its token has characters.
-/

namespace QuoteStack.Program

open Token (tokensFrom IsLexeme)

section
variable (margin : Nat)

/-- What the values of several levels weigh together. -/
def massLevels : List (List Value) → Nat
  | [] => 0
  | level :: more => Value.massAll margin level + massLevels more

/-- Closing blocks adds and loses no weight. -/
theorem massAll_closeAll (current : List Value) (levels : List (List Value)) :
    Value.massAll margin (closeAll .values current levels) =
      Value.massAll margin current + massLevels margin levels := by
  induction levels generalizing current with
  | nil => rfl
  | cons outer more ih =>
    rw [closeAll, ih, Builder.values_block, Value.massAll, Value.mass, massLevels, Nat.add_assoc]

/-- Taking a token adds no more weight than the token has characters, each with the margin. -/
theorem mass_of_takes {token : Token} {current current' : List Value}
    {levels levels' : List (List Value)} (h : Takes token current levels current' levels') :
    Value.massAll margin current' + massLevels margin levels' ≤
      Value.massAll margin current + massLevels margin levels +
        (margin + 1) * token.text.toList.length := by
  cases h with
  | @number whole fraction _ _ hnumeral htext _ =>
    have hspan := hnumeral.span_ofNumeral_le
    have hpos : 0 < whole.length := List.length_pos_iff.mpr hnumeral.nonempty
    have hdigits := Decimal.length_digits_le whole fraction
    rw [htext, Nat.succ_mul]
    -- the token is not empty, so it has room for the margin
    have hmargin : margin * 1 ≤ margin * (Decimal.numeral whole fraction).length :=
      Nat.mul_le_mul_left _ (by omega)
    rw [Value.massAll, Value.mass]
    omega
  | word _ =>
    rw [Value.massAll, Value.mass]
    omega
  | quoteOpen =>
    rw [Value.massAll, massLevels]
    omega
  | quoteClose =>
    rw [Value.massAll, Value.mass, massLevels]
    omega
  | nothing => exact Nat.le_add_right _ _

/-- Reading on adds no more weight than the tokens have characters, each with the margin. -/
theorem massAll_readFrom {tokens : List Token}
    (htokens : ∀ token ∈ tokens, IsLexeme token.kind token.text.toList) {current : List Value}
    {levels : List (List Value)} {reading : Reading Value}
    (h : readFrom .values current levels tokens = .ok reading) :
    Value.massAll margin reading.program ≤ Value.massAll margin current + massLevels margin levels +
      (margin + 1) * Token.totalLength tokens := by
  induction tokens generalizing current levels with
  | nil =>
    rw [readFrom] at h
    rw [← Except.ok.inj h, massAll_closeAll]
    exact Nat.le_add_right _ _
  | cons token rest ih =>
    obtain ⟨hlexeme, hrest⟩ := List.forall_mem_cons.mp htokens
    rw [Token.totalLength, Nat.mul_add]
    rcases readFrom_lexeme hlexeme rest current levels with
      ⟨current', levels', htakes, heq⟩ | ⟨heq, -⟩ | ⟨warning?, heq⟩
    · have hstep := mass_of_takes margin htakes
      have hless := ih hrest (heq.symm.trans h)
      omega
    · cases heq.symm.trans h
    · rw [← Except.ok.inj (heq.symm.trans h)]
      dsimp only
      omega

/-- A program weighs no more than its text allows. -/
theorem massAll_ofSource {source : String} {reading : Reading Value} (h : ofSource source = .ok reading) :
    Value.massAll margin reading.program ≤ (margin + 1) * source.length := by
  have hlexemes : ∀ token ∈ Token.scan source, IsLexeme token.kind token.text.toList :=
    fun token htoken => (Token.isLexeme_of_mem htoken).1
  have hprogram := massAll_readFrom margin hlexemes h
  have hlengths : Token.totalLength (Token.scan source) ≤ source.toList.length :=
    Token.totalLength_tokensFrom_le 0 source.toList
  rw [String.length_toList] at hlengths
  have htotal := Nat.mul_le_mul_left (margin + 1) hlengths
  have hnone : Value.massAll margin [] + massLevels margin [] = 0 := rfl
  rw [hnone, Nat.zero_add] at hprogram
  exact Nat.le_trans hprogram htotal

end

end QuoteStack.Program

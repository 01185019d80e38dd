import QuoteStack.Text.Blank
import QuoteStack.Text.Digit

/-!
Integer numerals: an optional sign and decimal digits of any script, with single underscores
between digits and blanks around. A numeral has a limited number of digits, so that reading stays
cheap.
-/

namespace QuoteStack.Text

/-- The most digits a numeral may have. -/
def maxNumeralDigits : Nat := 4300

/-- The integer is written with no more digits than a numeral may have. -/
def IsShort (n : Int) : Prop :=
  (Nat.toDigits 10 n.natAbs).length ≤ maxNumeralDigits

instance : DecidablePred IsShort := fun _ => Nat.decLe _ _

/-- The wording of the fault of writing an integer that is not short. -/
def longInteger : String :=
  "Exceeds the limit (" ++ toString maxNumeralDigits ++
    " digits) for integer string conversion; use sys.set_int_max_str_digits() to increase the limit"

/-- An integer that numerals are long enough for, so that it can be written and read. -/
structure ShortInteger where
  value : Int
  short : IsShort value
  deriving DecidableEq

namespace ShortInteger

instance : Coe ShortInteger Int :=
  ⟨value⟩

theorem ext {m n : ShortInteger} (h : m.value = n.value) : m = n := by
  cases m
  cases n
  congr

/-- A natural number that is short. -/
def ofNat (n : Nat) (short : IsShort n := by decide) : ShortInteger :=
  ⟨n, short⟩

/-- The integer that a row of not too many digits spells behind a sign. -/
def ofDigits (negative : Bool) (digits : List Nat) (h : ∀ digit ∈ digits, digit < 10)
    (hlength : digits.length ≤ maxNumeralDigits) : ShortInteger where
  value := if negative then -(Text.ofDigits digits : Int) else Text.ofDigits digits
  short := by
    have habs : (if negative then -(Text.ofDigits digits : Int) else Text.ofDigits digits).natAbs =
        Text.ofDigits digits := by
      split <;> omega
    rw [IsShort, habs, Nat.length_toDigits_le_iff (by decide) (by decide)]
    calc Text.ofDigits digits < 10 ^ digits.length := ofDigits_lt h
      _ ≤ 10 ^ maxNumeralDigits := Nat.pow_le_pow_right (by decide) hlength

end ShortInteger

/-- Why a text is no integer. -/
inductive NumeralFault where
  /-- The text does not have the form of a numeral. -/
  | malformed
  /-- The numeral has more digits than allowed. -/
  | tooLong (digits : Nat)
  deriving DecidableEq

/-- The blanks that may stand around a numeral: all but the four information separators. -/
def isNumeralBlank (c : Char) : Bool :=
  isBlank c && !(0x1C ≤ c.toNat && c.toNat ≤ 0x1F)

/-- The values of the digits at the head of a text, and what follows them. An underscore may stand
after a digit and must have a digit behind it. -/
def digitGroups? (afterDigit : Bool) : List Char → Option (List Nat × List Char)
  | [] => if afterDigit then some ([], []) else none
  | c :: rest =>
    match digitValue? c with
    | some digit => (digitGroups? true rest).map fun (digits, after) => (digit :: digits, after)
    | none =>
      if !afterDigit then none
      else if c == '_' then digitGroups? false rest
      else some ([], c :: rest)

/-- The digits at the head of a text have values below ten. -/
theorem lt_of_mem_digitGroups? {afterDigit : Bool} {text after : List Char} {digits : List Nat}
    (h : digitGroups? afterDigit text = some (digits, after)) :
    ∀ digit ∈ digits, digit < 10 := by
  fun_induction digitGroups? afterDigit text generalizing digits after with
  | case1 => cases h; nofun
  | case2 => cases h
  | case3 afterDigit c rest first hvalue ih =>
    obtain ⟨⟨others, behind⟩, hrest, heq⟩ := Option.map_eq_some_iff.mp h
    obtain ⟨rfl, rfl⟩ := Prod.mk.inj heq
    intro digit hdigit
    rcases List.mem_cons.mp hdigit with rfl | hdigit
    · exact digitValue?_lt hvalue
    · exact ih hrest digit hdigit
  | case4 => cases h
  | case5 _ _ _ _ _ _ ih => exact ih h
  | case6 => cases h; nofun

/-- Splits a sign off a text; the flag tells a minus. -/
def splitSign : List Char → Bool × List Char
  | '-' :: rest => (true, rest)
  | '+' :: rest => (false, rest)
  | text => (false, text)

/-- Reads an integer that is short enough. -/
def readNumeral (text : List Char) : Except NumeralFault ShortInteger :=
  let (negative, body) := splitSign (text.dropWhile isNumeralBlank)
  match hgroups : digitGroups? false body with
  | none => .error .malformed
  | some (digits, after) =>
    if hlong : maxNumeralDigits < digits.length then .error (.tooLong digits.length)
    else if after.all isNumeralBlank then
      .ok (.ofDigits negative digits (lt_of_mem_digitGroups? hgroups) (Nat.le_of_not_lt hlong))
    else .error .malformed

/-- Reads an integer. -/
def readInteger (text : List Char) : Except NumeralFault Int :=
  (readNumeral text).map (·.value)

theorem readInteger_eq (text : List Char) :
    readInteger text =
      let (negative, body) := splitSign (text.dropWhile isNumeralBlank)
      match digitGroups? false body with
      | none => .error .malformed
      | some (digits, after) =>
        if maxNumeralDigits < digits.length then .error (.tooLong digits.length)
        else if after.all isNumeralBlank then
          .ok (if negative then -(ofDigits digits : Int) else ofDigits digits)
        else .error .malformed := by
  unfold readInteger readNumeral
  dsimp only
  split
  · next hgroups =>
    simp only [hgroups]
    rfl
  · next digits after hgroups =>
    simp only [hgroups]
    split
    · rfl
    · split <;> rfl

end QuoteStack.Text

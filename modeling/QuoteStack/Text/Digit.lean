/-!
Digits of the scripts of the world. A decimal digit has a value below ten and counts in numerals;
a digit sign such as a superscript two looks like a digit and counts in none.
-/

namespace QuoteStack.Text

/-- The zeros of all decimal digit sets; the nine digits after a zero follow it in order. -/
def digitZeros : List Nat :=
  [0x0030, 0x0660, 0x06F0, 0x07C0, 0x0966, 0x09E6, 0x0A66, 0x0AE6, 0x0B66, 0x0BE6, 0x0C66,
    0x0CE6, 0x0D66, 0x0DE6, 0x0E50, 0x0ED0, 0x0F20, 0x1040, 0x1090, 0x17E0, 0x1810, 0x1946,
    0x19D0, 0x1A80, 0x1A90, 0x1B50, 0x1BB0, 0x1C40, 0x1C50, 0xA620, 0xA8D0, 0xA900, 0xA9D0,
    0xA9F0, 0xAA50, 0xABF0, 0xFF10, 0x104A0, 0x10D30, 0x11066, 0x110F0, 0x11136, 0x111D0, 0x112F0,
    0x11450, 0x114D0, 0x11650, 0x116C0, 0x11730, 0x118E0, 0x11950, 0x11C50, 0x11D50, 0x11DA0,
    0x16A60, 0x16AC0, 0x16B50, 0x1D7CE, 0x1D7D8, 0x1D7E2, 0x1D7EC, 0x1D7F6, 0x1E140, 0x1E2F0,
    0x1E950, 0x1FBF0]

/-- The value of a decimal digit of any script. -/
def digitValue? (c : Char) : Option Nat :=
  (digitZeros.find? fun first => first ≤ c.toNat && c.toNat < first + 10).map (c.toNat - ·)

/-- A decimal digit has a value below ten. -/
theorem digitValue?_lt {c : Char} {digit : Nat} (h : digitValue? c = some digit) : digit < 10 := by
  obtain ⟨first, hfirst, rfl⟩ := Option.map_eq_some_iff.mp h
  have hrange := List.find?_some hfirst
  simp only [Bool.and_eq_true, decide_eq_true_eq] at hrange
  omega

/-- The ranges of digit signs that are no decimal digits: superscripts, subscripts, digits in
circles and the digits of scripts without a zero. -/
def digitSigns : List (Nat × Nat) :=
  [(0x00B2, 0x00B3), (0x00B9, 0x00B9), (0x1369, 0x1371), (0x19DA, 0x19DA), (0x2070, 0x2070),
    (0x2074, 0x2079), (0x2080, 0x2089), (0x2460, 0x2468), (0x2474, 0x247C), (0x2488, 0x2490),
    (0x24EA, 0x24EA), (0x24F5, 0x24FD), (0x24FF, 0x24FF), (0x2776, 0x277E), (0x2780, 0x2788),
    (0x278A, 0x2792), (0x10A40, 0x10A43), (0x10E60, 0x10E68), (0x11052, 0x1105A),
    (0x1F100, 0x1F10A)]

/-- Whether a character is a decimal digit or a digit sign. -/
def isDigitSign (c : Char) : Bool :=
  (digitValue? c).isSome || digitSigns.any fun (first, last) => first ≤ c.toNat && c.toNat ≤ last

/-- The natural number that a row of digit values spells, most significant digit first. -/
def ofDigits (digits : List Nat) : Nat :=
  digits.foldl (fun value digit => 10 * value + digit) 0

/-- A row of digits spells a number below the power of ten for its length. -/
theorem ofDigits_lt {digits : List Nat} (h : ∀ digit ∈ digits, digit < 10) :
    ofDigits digits < Nat.pow 10 digits.length := by
  -- the first digits are worth as many powers of ten more as digits follow
  have hfold : ∀ (rest : List Nat) (value bound : Nat), (∀ digit ∈ rest, digit < 10) →
      value < bound →
      rest.foldl (fun value digit => 10 * value + digit) value < bound * 10 ^ rest.length := by
    intro rest
    induction rest with
    | nil => intro value bound _ hvalue; simpa using hvalue
    | cons digit rest ih =>
      intro value bound hdigits hvalue
      have hdigit := hdigits digit List.mem_cons_self
      have hnext := ih (10 * value + digit) (bound * 10)
        (fun other hother => hdigits other (List.mem_cons_of_mem _ hother)) (by omega)
      rw [List.foldl_cons, List.length_cons, Nat.pow_succ', ← Nat.mul_assoc]
      exact hnext
  have hdigits := hfold digits 0 1 h Nat.zero_lt_one
  rwa [Nat.one_mul] at hdigits

end QuoteStack.Text

/-!
Reading text from bytes. The encoding is UTF-8; the first byte sequence that encodes no character
is reported with its place and the reason.
-/

namespace QuoteStack.Text

/-- Why a byte sequence encodes no character. -/
inductive Utf8Reason where
  | invalidStart
  | invalidContinuation
  | unexpectedEnd
  deriving DecidableEq

/-- The wording of a reason. -/
def Utf8Reason.message : Utf8Reason → String
  | .invalidStart => "invalid start byte"
  | .invalidContinuation => "invalid continuation byte"
  | .unexpectedEnd => "unexpected end of data"

/-- The bytes from `first` on, `count` many, that encode no character. -/
structure Utf8Fault where
  first : Nat
  count : Nat
  lead : UInt8
  reason : Utf8Reason
  deriving DecidableEq

/-- Tells the place of the fault, and the byte if it is a single one. -/
def Utf8Fault.message (fault : Utf8Fault) : String :=
  let subject :=
    if fault.count == 1 then
      "byte 0x" ++ String.ofList (Nat.toDigits 16 fault.lead.toNat) ++
        " in position " ++ toString fault.first
    else
      "bytes in position " ++ toString fault.first ++ "-" ++
        toString (fault.first + fault.count - 1)
  "'utf-8' codec can't decode " ++ subject ++ ": " ++ fault.reason.message

/-- The form of the characters that start with a byte: how many bytes follow, the least and the
greatest second byte, and the bits that the first byte contributes. -/
structure Utf8Form where
  following : Nat
  least : Nat
  greatest : Nat
  bits : Nat

/-- The form that a first byte announces. The bounds of the second byte exclude longer forms of
short characters, surrogates, and what lies beyond the last code point. -/
def Utf8Form.ofLead? (lead : UInt8) : Option Utf8Form :=
  let n := lead.toNat
  if n < 0x80 then some ⟨0, 0, 0, n⟩
  else if n < 0xC2 then none
  else if n < 0xE0 then some ⟨1, 0x80, 0xBF, n - 0xC0⟩
  else if n < 0xF0 then
    some ⟨2, if n == 0xE0 then 0xA0 else 0x80, if n == 0xED then 0x9F else 0xBF, n - 0xE0⟩
  else if n < 0xF5 then
    some ⟨3, if n == 0xF0 then 0x90 else 0x80, if n == 0xF4 then 0x8F else 0xBF, n - 0xF0⟩
  else none

/-- Gathers the bits of the following bytes of a character. The result is the code point and the
rest of the bytes, or how many bytes were good and why the next is not. -/
def followingBytes (good least greatest code : Nat) :
    Nat → List UInt8 → Except (Nat × Utf8Reason) (Nat × List UInt8)
  | 0, rest => .ok (code, rest)
  | _ + 1, [] => .error (good, .unexpectedEnd)
  | n + 1, byte :: rest =>
    if least ≤ byte.toNat && byte.toNat ≤ greatest then
      followingBytes (good + 1) 0x80 0xBF (64 * code + (byte.toNat - 0x80)) n rest
    else .error (good, .invalidContinuation)

theorem length_of_followingBytes {good least greatest code n : Nat} {bytes rest : List UInt8}
    {result : Nat} (h : followingBytes good least greatest code n bytes = .ok (result, rest)) :
    rest.length ≤ bytes.length := by
  induction n generalizing good least greatest code bytes with
  | zero =>
    simp only [followingBytes, Except.ok.injEq, Prod.mk.injEq] at h
    exact Nat.le_of_eq (congrArg List.length h.2.symm)
  | succ n ih =>
    cases bytes with
    | nil => simp [followingBytes] at h
    | cons byte bytes =>
      simp only [followingBytes] at h
      split at h
      · exact Nat.le_succ_of_le (ih h)
      · simp at h

/-- Reads the characters of the bytes, the first of which stands at `position`; `read` holds the
characters before it, the latest first. -/
def utf8From (position : Nat) (read : List Char) (bytes : List UInt8) :
    Except Utf8Fault (List Char) :=
  match bytes with
  | [] => .ok read.reverse
  | lead :: rest =>
    match Utf8Form.ofLead? lead with
    | none => .error ⟨position, 1, lead, .invalidStart⟩
    | some form =>
      match h : followingBytes 1 form.least form.greatest form.bits form.following rest with
      | .ok (code, after) =>
        utf8From (position + form.following + 1) (Char.ofNat code :: read) after
      | .error (good, reason) => .error ⟨position, good, lead, reason⟩
termination_by bytes.length
decreasing_by exact Nat.lt_succ_of_le (length_of_followingBytes h)

/-- The text that the bytes encode. -/
def ofUtf8 (bytes : List UInt8) : Except Utf8Fault (List Char) :=
  utf8From 0 [] bytes

end QuoteStack.Text

import QuoteStack.Text.Lines
import QuoteStack.Text.Utf8

/-!
Texts that come in from outside. The bytes that encode a text are read as this text, and a text
without carriage returns has its line ends already as programs see them.
-/

namespace QuoteStack.Text

/-! ## UTF-8 -/

/-- A byte of the right range adds six bits. -/
theorem followingBytes_cons {good least greatest code n k : Nat} (rest : List UInt8)
    (hbyte : k < 256) (hleast : least ≤ k) (hgreatest : k ≤ greatest) :
    followingBytes good least greatest code (n + 1) (UInt8.ofNat k :: rest) =
      followingBytes (good + 1) 0x80 0xBF (64 * code + (k - 0x80)) n rest := by
  have hk : (UInt8.ofNat k).toNat = k := UInt8.toNat_ofNat_of_lt' hbyte
  rw [followingBytes, hk, decide_eq_true hleast, decide_eq_true hgreatest]
  rfl

/-- A character whose bytes are in order is read, and then the rest. -/
theorem utf8From_cons {position : Nat} {read : List Char} {lead : UInt8} {rest after : List UInt8}
    {form : Utf8Form} {code : Nat} (hform : Utf8Form.ofLead? lead = some form)
    (hcode : followingBytes 1 form.least form.greatest form.bits form.following rest =
      .ok (code, after)) :
    utf8From position read (lead :: rest) =
      utf8From (position + form.following + 1) (Char.ofNat code :: read) after := by
  rw [utf8From]
  simp only [hform]
  split
  · next code' after' heq =>
    obtain ⟨rfl, rfl⟩ := Prod.mk.inj (Except.ok.inj (heq.symm.trans hcode))
    rfl
  · next heq => cases heq.symm.trans hcode

section
variable {k : Nat}

/-- The forms of characters of one byte to four. -/
theorem ofLead?_one (h : k < 0x80) : Utf8Form.ofLead? (UInt8.ofNat k) = some ⟨0, 0, 0, k⟩ := by
  unfold Utf8Form.ofLead?
  rw [UInt8.toNat_ofNat_of_lt' (Nat.lt_trans h (by decide))]
  exact if_pos h

theorem ofLead?_two (h : 0xC2 ≤ k) (h' : k < 0xE0) :
    Utf8Form.ofLead? (UInt8.ofNat k) = some ⟨1, 0x80, 0xBF, k - 0xC0⟩ := by
  unfold Utf8Form.ofLead?
  rw [UInt8.toNat_ofNat_of_lt' (Nat.lt_trans h' (by decide))]
  dsimp only
  rw [if_neg (by omega), if_neg (by omega), if_pos h']

theorem ofLead?_three (h : 0xE0 ≤ k) (h' : k < 0xF0) :
    Utf8Form.ofLead? (UInt8.ofNat k) =
      some ⟨2, if k == 0xE0 then 0xA0 else 0x80, if k == 0xED then 0x9F else 0xBF, k - 0xE0⟩ := by
  unfold Utf8Form.ofLead?
  rw [UInt8.toNat_ofNat_of_lt' (Nat.lt_trans h' (by decide))]
  dsimp only
  rw [if_neg (by omega), if_neg (by omega), if_neg (by omega), if_pos h']

theorem ofLead?_four (h : 0xF0 ≤ k) (h' : k < 0xF5) :
    Utf8Form.ofLead? (UInt8.ofNat k) =
      some ⟨3, if k == 0xF0 then 0x90 else 0x80, if k == 0xF4 then 0x8F else 0xBF, k - 0xF0⟩ := by
  unfold Utf8Form.ofLead?
  rw [UInt8.toNat_ofNat_of_lt' (Nat.lt_trans h' (by decide))]
  dsimp only
  rw [if_neg (by omega), if_neg (by omega), if_neg (by omega), if_neg (by omega), if_pos h']

end

/-- The bytes of a character are read as the character. -/
theorem utf8From_encodeChar (position : Nat) (read : List Char) (c : Char) (rest : List UInt8) :
    ∃ next, utf8From position read (String.utf8EncodeChar c ++ rest) =
      utf8From next (c :: read) rest := by
  obtain ⟨v, hv⟩ : ∃ v, v = c.val.toNat := ⟨_, rfl⟩
  have hchar : Char.ofNat v = c := hv ▸ Char.ofNat_toNat c
  have hvalid : v < 0xD800 ∨ (0xDFFF < v ∧ v < 0x110000) := hv ▸ c.valid
  unfold String.utf8EncodeChar
  dsimp only
  rw [← hv, ← hchar]
  split
  · exact ⟨_, utf8From_cons (ofLead?_one (by omega)) rfl⟩
  split
  · simp only [List.cons_append, List.nil_append]
    refine ⟨_, utf8From_cons (ofLead?_two (by omega) (by omega)) ?_⟩
    dsimp only
    rw [followingBytes_cons _ (by omega) (by omega) (by omega), followingBytes]
    refine congrArg (fun code => Except.ok (code, rest)) ?_
    omega
  split
  · -- the second byte is bounded more tightly where a form would be too long, or a surrogate
    obtain ⟨lead, hlead⟩ : ∃ lead, lead = v / 4096 % 16 + 224 := ⟨_, rfl⟩
    obtain ⟨second, hsecond⟩ : ∃ second, second = v / 64 % 64 + 128 := ⟨_, rfl⟩
    have hleast : (if lead == 0xE0 then 0xA0 else 0x80) ≤ second := by
      split <;> simp only [beq_iff_eq] at * <;> omega
    have hgreatest : second ≤ (if lead == 0xED then 0x9F else 0xBF) := by
      split <;> simp only [beq_iff_eq] at * <;> omega
    simp only [← hlead, ← hsecond, List.cons_append, List.nil_append]
    refine ⟨_, utf8From_cons (ofLead?_three (by omega) (by omega)) ?_⟩
    dsimp only
    rw [followingBytes_cons _ (by omega) hleast hgreatest,
      followingBytes_cons _ (by omega) (by omega) (by omega), followingBytes]
    refine congrArg (fun code => Except.ok (code, rest)) ?_
    omega
  · -- and where a form would be too long, or lie beyond the last code point
    obtain ⟨lead, hlead⟩ : ∃ lead, lead = v / 262144 % 8 + 240 := ⟨_, rfl⟩
    obtain ⟨second, hsecond⟩ : ∃ second, second = v / 4096 % 64 + 128 := ⟨_, rfl⟩
    have hleast : (if lead == 0xF0 then 0x90 else 0x80) ≤ second := by
      split <;> simp only [beq_iff_eq] at * <;> omega
    have hgreatest : second ≤ (if lead == 0xF4 then 0x8F else 0xBF) := by
      split <;> simp only [beq_iff_eq] at * <;> omega
    simp only [← hlead, ← hsecond, List.cons_append, List.nil_append]
    refine ⟨_, utf8From_cons (ofLead?_four (by omega) (by omega)) ?_⟩
    dsimp only
    rw [followingBytes_cons _ (by omega) hleast hgreatest,
      followingBytes_cons _ (by omega) (by omega) (by omega),
      followingBytes_cons _ (by omega) (by omega) (by omega), followingBytes]
    refine congrArg (fun code => Except.ok (code, rest)) ?_
    omega

/-- The bytes that encode a text are read as the text. -/
theorem utf8From_flatMap (position : Nat) (read text : List Char) :
    utf8From position read (text.flatMap String.utf8EncodeChar) = .ok (read.reverse ++ text) := by
  induction text generalizing position read with
  | nil => rw [List.flatMap_nil, utf8From, List.append_nil]
  | cons c rest ih =>
    obtain ⟨next, hnext⟩ := utf8From_encodeChar position read c (rest.flatMap String.utf8EncodeChar)
    rw [List.flatMap_cons, hnext, ih, List.reverse_cons, List.append_assoc, List.singleton_append]

theorem ofUtf8_toUTF8 (text : String) : ofUtf8 text.toUTF8.data.toList = .ok text.toList := by
  have hbytes : text.toUTF8.data.toList = text.toList.flatMap String.utf8EncodeChar := by
    rw [String.toUTF8, ← String.utf8Encode_toList, List.utf8Encode, List.data_toByteArray,
      List.toList_toArray]
  rw [hbytes]
  exact utf8From_flatMap 0 [] text.toList

/-! ## Line ends -/

theorem unifyLineEndsFrom_of_not_mem (read : List Char) {text : List Char} (h : '\r' ∉ text) :
    unifyLineEndsFrom read text = read.reverse ++ text := by
  induction text generalizing read with
  | nil => rw [unifyLineEndsFrom, List.append_nil]
  | cons c rest ih =>
    rw [List.mem_cons, not_or] at h
    rw [unifyLineEndsFrom, ih _ h.2, List.reverse_cons, List.append_assoc, List.singleton_append]
    · exact fun rest hc => absurd hc.symm h.1
    · exact fun hc => absurd hc.symm h.1

/-- A text without carriage returns has no line ends to be written anew. -/
theorem unifyLineEnds_of_not_mem {text : List Char} (h : '\r' ∉ text) :
    unifyLineEnds text = text :=
  unifyLineEndsFrom_of_not_mem [] h

end QuoteStack.Text

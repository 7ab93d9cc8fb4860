import DownloadReport.Proofs.Scalars

/-! Texts in hexadecimal. A text is read just when it has an even number of bytes and each of them is a
    digit, and what is read are the bytes that are written as the text in lower case
    (`decode_eq_ok_iff`). Every other text is refused, for its odd length if it has one, and otherwise
    for the first byte that is no digit (`decode_eq_error_iff`). Lengths and places are counted in
    bytes; a character of more than one byte holds no digit. -/

namespace DownloadReport.Hex

/-! ### Digits -/

/-- A byte of text that is a digit, in either case. -/
def IsDigitByte (byte : UInt8) : Prop :=
  ('0'.toNat ≤ byte.toNat ∧ byte.toNat ≤ '9'.toNat) ∨
    ('a'.toNat ≤ byte.toNat ∧ byte.toNat ≤ 'f'.toNat) ∨
      ('A'.toNat ≤ byte.toNat ∧ byte.toNat ≤ 'F'.toNat)

instance : DecidablePred IsDigitByte := fun _ => inferInstanceAs (Decidable (_ ∨ _ ∨ _))

/-- The character of a byte in lower case. -/
def lowerChar (byte : UInt8) : Char := (Char.ofNat byte.toNat).toLower

/-- What holds of the first 256 numbers holds of every byte. -/
theorem forall_byte {P : UInt8 → Prop} (h : ∀ n < 256, P (UInt8.ofNat n)) (byte : UInt8) : P byte := by
  simpa using h byte.toNat byte.toNat_lt

theorem digit?_eq_none_iff (byte : UInt8) :
    digit? (Char.ofNat byte.toNat) = none ↔ ¬IsDigitByte byte :=
  forall_byte (P := fun byte => digit? (Char.ofNat byte.toNat) = none ↔ ¬IsDigitByte byte)
    (by decide +kernel) byte

/-- The value of a digit is written as the digit in lower case. -/
theorem digit_of_digit? (byte : UInt8) :
    ∀ n ∈ digit? (Char.ofNat byte.toNat), n < 16 ∧ digit n = lowerChar byte :=
  forall_byte (P := fun byte => ∀ n ∈ digit? (Char.ofNat byte.toNat), n < 16 ∧ digit n = lowerChar byte)
    (by decide +kernel) byte

theorem byteDigit_of_digit {byte : UInt8} (h : IsDigitByte byte) (position : Nat) :
    ∃ n < 16, byteDigit byte position = .ok n ∧ digit n = lowerChar byte := by
  cases hn : digit? (Char.ofNat byte.toNat) with
  | none => exact absurd h ((digit?_eq_none_iff byte).1 hn)
  | some n =>
    obtain ⟨hlt, hdigit⟩ := digit_of_digit? byte n hn
    exact ⟨n, hlt, by rw [byteDigit, hn], hdigit⟩

theorem byteDigit_of_not_digit {byte : UInt8} (h : ¬IsDigitByte byte) (position : Nat) :
    byteDigit byte position = .error (.invalidByte byte position) := by
  rw [byteDigit, (digit?_eq_none_iff byte).2 h]

/-- Two digits are the text of the byte that they denote, but for their case. -/
theorem pair_ofNat {high low : Nat} (hhigh : high < 16) (hlow : low < 16) :
    pair (UInt8.ofNat (16 * high + low)) = [digit high, digit low] := by
  have hbyte : (UInt8.ofNat (16 * high + low)).toNat = 16 * high + low :=
    UInt8.toNat_ofNat_of_lt (by simp only [UInt8.size]; omega)
  have hhalves : (16 * high + low) / 16 = high ∧ (16 * high + low) % 16 = low := by omega
  rw [pair, hbyte, hhalves.1, hhalves.2]

/-! ### Pairs of digits -/

/-- Digits in pairs are read, as the bytes that are written with them. -/
theorem decodePairs_of_digits : ∀ {bytes : List UInt8} (position : Nat), bytes.length % 2 = 0 →
    (∀ b ∈ bytes, IsDigitByte b) →
    ∃ read, decodePairs position bytes = .ok read ∧ read.flatMap pair = bytes.map lowerChar
  | [], _, _, _ => ⟨[], rfl, rfl⟩
  | [_], _, heven, _ => nomatch heven
  | high :: low :: rest, position, heven, hdigits => by
    obtain ⟨hhigh, hdigits⟩ := List.forall_mem_cons.1 hdigits
    obtain ⟨hlow, hdigits⟩ := List.forall_mem_cons.1 hdigits
    obtain ⟨h, hh, hhread, hhchar⟩ := byteDigit_of_digit hhigh position
    obtain ⟨l, hl, hlread, hlchar⟩ := byteDigit_of_digit hlow (position + 1)
    have hrest : rest.length % 2 = 0 := by
      simp only [List.length_cons] at heven
      omega
    obtain ⟨read, hread, hchars⟩ := decodePairs_of_digits (position + 2) hrest hdigits
    refine ⟨UInt8.ofNat (16 * h + l) :: read, ?_, ?_⟩
    · rw [decodePairs, hhread, ok_bind, hlread, ok_bind, hread, ok_bind]
      rfl
    · rw [List.flatMap_cons, pair_ofNat hh hl, hchars, hhchar, hlchar]
      rfl

/-- Of what is no digit, the first is noticed. -/
theorem decodePairs_of_not_digit {b : UInt8} {after : List UInt8} (hb : ¬IsDigitByte b) :
    ∀ {before : List UInt8} (position : Nat), (before ++ b :: after).length % 2 = 0 →
    (∀ c ∈ before, IsDigitByte c) →
    decodePairs position (before ++ b :: after) = .error (.invalidByte b (position + before.length))
  | [], position, heven, _ => by
    obtain ⟨low, rest, rfl⟩ : ∃ low rest, after = low :: rest := by
      cases after with
      | nil => exact nomatch heven
      | cons low rest => exact ⟨low, rest, rfl⟩
    rw [List.nil_append, decodePairs, byteDigit_of_not_digit hb, error_bind]
    rfl
  | [high], position, _, hdigits => by
    obtain ⟨h, _, hread, _⟩ := byteDigit_of_digit (hdigits high List.mem_cons_self) position
    rw [List.singleton_append, decodePairs, hread, ok_bind, byteDigit_of_not_digit hb, error_bind]
    rfl
  | high :: low :: before, position, heven, hdigits => by
    obtain ⟨hhigh, hdigits⟩ := List.forall_mem_cons.1 hdigits
    obtain ⟨hlow, hdigits⟩ := List.forall_mem_cons.1 hdigits
    obtain ⟨h, _, hhread, _⟩ := byteDigit_of_digit hhigh position
    obtain ⟨l, _, hlread, _⟩ := byteDigit_of_digit hlow (position + 1)
    have hrest : (before ++ b :: after).length % 2 = 0 := by
      simp only [List.cons_append, List.length_cons] at heven
      omega
    have hplace : position + 2 + before.length = position + (high :: low :: before).length := by
      simp only [List.length_cons]
      omega
    rw [List.cons_append, List.cons_append, decodePairs, hhread, ok_bind, hlread, ok_bind,
      decodePairs_of_not_digit hb (position + 2) hrest hdigits, error_bind, hplace]

/-! ### Texts -/

/-- The size of a text is the number of its bytes. -/
theorem length_bytesOf (text : String) : (bytesOf text).length = text.utf8ByteSize := by
  have hbytes : text.toByteArray = (bytesOf text).toByteArray := by
    rw [bytesOf, ← List.utf8Encode, ← String.toByteArray_ofList, String.ofList_toList]
  rw [← String.size_toByteArray, hbytes, List.size_toByteArray]

/-- A character that is made of digits is one digit; the first byte of a longer one is none. -/
theorem utf8EncodeChar_of_digits {c : Char} (h : ∀ b ∈ String.utf8EncodeChar c, IsDigitByte b) :
    ∃ byte, String.utf8EncodeChar c = [byte] ∧ Char.ofNat byte.toNat = c := by
  have hlarge : ∀ n < 256, 192 ≤ n → ¬IsDigitByte (UInt8.ofNat n) := by decide +kernel
  unfold String.utf8EncodeChar at h ⊢
  dsimp only at h ⊢
  split at h
  next hascii =>
    have hbyte : (UInt8.ofNat c.val.toNat).toNat = c.toNat :=
      UInt8.toNat_ofNat_of_lt (by simp only [UInt8.size]; omega)
    rw [if_pos hascii]
    exact ⟨_, rfl, by rw [hbyte, Char.ofNat_toNat]⟩
  split at h
  · exact absurd (h _ List.mem_cons_self) (hlarge _ (by omega) (by omega))
  split at h
  · exact absurd (h _ List.mem_cons_self) (hlarge _ (by omega) (by omega))
  · exact absurd (h _ List.mem_cons_self) (hlarge _ (by omega) (by omega))

/-- A text in lower case, character by character. -/
theorem toList_toLower (text : String) : text.toLower.toList = text.toList.map Char.toLower :=
  String.toList_map

/-- A text of digits in lower case, byte by byte. -/
theorem toLower_of_digits {text : String} (h : ∀ b ∈ bytesOf text, IsDigitByte b) :
    text.toLower = String.ofList ((bytesOf text).map lowerChar) := by
  rw [← String.toList_inj, toList_toLower, String.toList_ofList, bytesOf]
  rw [bytesOf] at h
  generalize text.toList = cs at h ⊢
  induction cs with
  | nil => rfl
  | cons c cs ih =>
    rw [List.flatMap_cons] at h ⊢
    obtain ⟨byte, hbyte, hc⟩ := utf8EncodeChar_of_digits fun b hb => h b (List.mem_append_left _ hb)
    rw [List.map_cons, List.map_append, ih fun b hb => h b (List.mem_append_right _ hb), hbyte,
      List.map_singleton, lowerChar, hc]
    rfl

/-- A text in hexadecimal: bytes that are digits, two and two. -/
structure IsHex (text : String) : Prop where
  even : text.utf8ByteSize % 2 = 0
  digits : ∀ b ∈ bytesOf text, IsDigitByte b

/-- What is wrong with a text that is not in hexadecimal. -/
inductive Refused (text : String) : Error → Prop where
  /-- Whatever its bytes are, there is an odd number of them. -/
  | oddLength (h : text.utf8ByteSize % 2 = 1) : Refused text .oddLength
  /-- The first byte that is no digit, and how many stand before it. -/
  | invalidByte {before after : List UInt8} {b : UInt8} (heven : text.utf8ByteSize % 2 = 0)
      (hbytes : bytesOf text = before ++ b :: after) (hbefore : ∀ c ∈ before, IsDigitByte c)
      (hb : ¬IsDigitByte b) : Refused text (.invalidByte b before.length)

/-- A text is in hexadecimal, or something is wrong with it. -/
theorem isHex_or_refused (text : String) : IsHex text ∨ ∃ e, Refused text e := by
  rcases Nat.mod_two_eq_zero_or_one text.utf8ByteSize with heven | hodd
  · cases hfind : (bytesOf text).find? fun b => !decide (IsDigitByte b) with
    | none =>
      refine .inl ⟨heven, fun b hb => ?_⟩
      simpa using List.find?_eq_none.1 hfind b hb
    | some b =>
      obtain ⟨hb, before, after, hbytes, hbefore⟩ := List.find?_eq_some_iff_append.1 hfind
      exact .inr ⟨_, .invalidByte heven hbytes (fun c hc => by simpa using hbefore c hc)
        (by simpa using hb)⟩
  · exact .inr ⟨_, .oddLength hodd⟩

theorem IsHex.decode {text : String} (h : IsHex text) :
    ∃ bytes, decode text = .ok bytes ∧ encode bytes = text.toLower := by
  have heven := h.even
  rw [← length_bytesOf] at heven
  obtain ⟨bytes, hread, hchars⟩ := decodePairs_of_digits 0 heven h.digits
  refine ⟨bytes, ?_, ?_⟩
  · rw [Hex.decode, heven]
    exact hread
  · rw [encode, hchars, toLower_of_digits h.digits]

theorem Refused.decode {text : String} {e : Error} (h : Refused text e) : decode text = .error e := by
  cases h with
  | oddLength hodd =>
    rw [← length_bytesOf] at hodd
    rw [Hex.decode, hodd]
    rfl
  | @invalidByte before after b heven hbytes hbefore hb =>
    rw [← length_bytesOf] at heven
    rw [hbytes] at heven
    rw [Hex.decode, hbytes, heven, decodePairs_of_not_digit hb 0 heven hbefore, Nat.zero_add]
    rfl

/-- What is read of a text are the bytes that are written as the text in lower case. -/
theorem decode_eq_ok_iff {text : String} {bytes : List UInt8} :
    decode text = .ok bytes ↔ IsHex text ∧ encode bytes = text.toLower := by
  constructor
  · intro h
    rcases isHex_or_refused text with hhex | ⟨e, he⟩
    · obtain ⟨read, hread, hchars⟩ := hhex.decode
      cases h.symm.trans hread
      exact ⟨hhex, hchars⟩
    · exact nomatch h.symm.trans he.decode
  · rintro ⟨hhex, hchars⟩
    obtain ⟨read, hread, hreadChars⟩ := hhex.decode
    -- Different bytes are written differently, since they can be had back.
    have hsame := decode_encode bytes
    rw [hchars, ← hreadChars, decode_encode] at hsame
    cases hsame
    exact hread

/-- A text is refused for what is wrong with it. -/
theorem decode_eq_error_iff {text : String} {e : Error} : decode text = .error e ↔ Refused text e := by
  refine ⟨fun h => ?_, Refused.decode⟩
  rcases isHex_or_refused text with hhex | ⟨e', he'⟩
  · obtain ⟨_, hread, _⟩ := hhex.decode
    exact nomatch h.symm.trans hread
  · cases h.symm.trans he'.decode
    exact he'

/-! ### Written bytes -/

/-- The digits that bytes are written with. -/
def lowerDigits : List Char := "0123456789abcdef".toList

theorem digit_mem_lowerDigits {n : Nat} (hn : n < 16) : digit n ∈ lowerDigits := by
  have hall : ∀ n < 16, digit n ∈ lowerDigits := by decide
  exact hall n hn

theorem mem_encode {bytes : List UInt8} {c : Char} (hc : c ∈ (encode bytes).toList) :
    c ∈ lowerDigits := by
  rw [encode, String.toList_ofList] at hc
  obtain ⟨byte, _, hc⟩ := List.mem_flatMap.1 hc
  obtain ⟨hhigh, hlow⟩ := halves_lt byte
  simp only [pair, List.mem_cons, List.not_mem_nil, or_false] at hc
  rcases hc with rfl | rfl
  · exact digit_mem_lowerDigits hhigh
  · exact digit_mem_lowerDigits hlow

/-- A text of these digits is in lower case. -/
theorem toLower_of_lowerDigits {text : String} (h : ∀ c ∈ text.toList, c ∈ lowerDigits) :
    text.toLower = text := by
  -- As a computation over the digits, and not over all characters there are.
  have hall : (lowerDigits.all fun c => c.toLower == c) = true := by decide
  rw [← String.toList_inj, toList_toLower]
  calc text.toList.map Char.toLower
    _ = text.toList.map id :=
      List.map_congr_left fun c hc => by simpa using List.all_eq_true.1 hall c (h c hc)
    _ = text.toList := List.map_id _

/-- A text in hexadecimal whose digits are in lower case. -/
structure IsLowerHex (text : String) : Prop extends IsHex text where
  lower : ∀ c ∈ text.toList, c ∈ lowerDigits

theorem isLowerHex_encode (bytes : List UInt8) : IsLowerHex (encode bytes) where
  toIsHex := (decode_eq_ok_iff.1 (decode_encode bytes)).1
  lower := fun _ hc => mem_encode hc

end DownloadReport.Hex

/-! ### Piece maps -/

namespace DownloadReport.Scalar

theorem pieceMap_eq_ok_iff {text : String} {m : PieceMap} :
    pieceMap (some text) = .ok m ↔ Hex.IsHex text ∧ m.toHex = text.toLower := by
  simp only [pieceMap, PieceMap.ofHex, mapError_eq_ok_iff, map_eq_ok_iff, Hex.decode_eq_ok_iff]
  constructor
  · rintro ⟨bytes, h, rfl⟩
    exact h
  · exact fun h => ⟨m.bytes, h, rfl⟩

theorem exists_pieceMap_iff {text : String} :
    (∃ m, pieceMap (some text) = .ok m) ↔ Hex.IsHex text := by
  simp only [pieceMap_eq_ok_iff]
  constructor
  · exact fun ⟨_, h, _⟩ => h
  · intro h
    obtain ⟨bytes, _, hlower⟩ := h.decode
    exact ⟨⟨bytes⟩, h, hlower⟩

theorem pieceMap_eq_error_iff {text : String} {e : DecodeError} :
    pieceMap (some text) = .error e ↔
      ∃ fault, Hex.Refused text fault ∧ e = .typeMismatch "bitfield" (hexReason text fault) := by
  simp only [pieceMap, PieceMap.ofHex, mapError_eq_error_iff, map_eq_error_iff,
    Hex.decode_eq_error_iff]

end DownloadReport.Scalar

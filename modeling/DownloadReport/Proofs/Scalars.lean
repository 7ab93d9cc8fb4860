import DownloadReport.Proofs.Outcome
import DownloadReport.Scalar

/-! Scalars are read back as they were written. A piece map comes back byte for byte, a number digit for
    digit, and an error code as the code of its number, which is itself unless it holds the number of a
    known code as if that were not known. A scalar that is refused is refused with its field. -/

namespace DownloadReport

/-! ### Hexadecimal -/

namespace Hex

/-- A digit as a byte of text. -/
def digitByte (n : Nat) : UInt8 := UInt8.ofNat (digit n).toNat

theorem utf8Encode_digit {n : Nat} (hn : n < 16) :
    String.utf8EncodeChar (digit n) = [digitByte n] := by
  have hall : ∀ n < 16, String.utf8EncodeChar (digit n) = [digitByte n] := by decide
  exact hall n hn

/-- A digit is read as its value, wherever it stands. -/
theorem byteDigit_digitByte {n : Nat} (hn : n < 16) (position : Nat) :
    byteDigit (digitByte n) position = .ok n := by
  have hall : ∀ n < 16, digit? (Char.ofNat (digitByte n).toNat) = some n := by decide
  rw [byteDigit, hall n hn]

/-- Both halves of a byte are digits. -/
theorem halves_lt (byte : UInt8) : byte.toNat / 16 < 16 ∧ byte.toNat % 16 < 16 := by
  have := byte.toNat_lt
  omega

/-- The bytes of text as which bytes are written. -/
theorem bytesOf_encode (bytes : List UInt8) :
    bytesOf (encode bytes) =
      bytes.flatMap fun byte => [digitByte (byte.toNat / 16), digitByte (byte.toNat % 16)] := by
  rw [bytesOf, encode, String.toList_ofList]
  induction bytes with
  | nil => rfl
  | cons byte bytes ih =>
    obtain ⟨hhigh, hlow⟩ := halves_lt byte
    rw [List.flatMap_cons, List.flatMap_append, ih, List.flatMap_cons]
    simp [pair, utf8Encode_digit hhigh, utf8Encode_digit hlow]

theorem decodePairs_bytesOf (bytes : List UInt8) (position : Nat) :
    decodePairs position (bytesOf (encode bytes)) = .ok bytes := by
  rw [bytesOf_encode]
  induction bytes generalizing position with
  | nil => rfl
  | cons byte bytes ih =>
    obtain ⟨hhigh, hlow⟩ := halves_lt byte
    simp only [List.flatMap_cons, List.cons_append, List.nil_append, decodePairs,
      byteDigit_digitByte hhigh, byteDigit_digitByte hlow, ih]
    show Except.ok (UInt8.ofNat (16 * (byte.toNat / 16) + byte.toNat % 16) :: bytes) = _
    rw [Nat.div_add_mod, UInt8.ofNat_toNat]

/-- Bytes can be had back from their text. -/
theorem decode_encode (bytes : List UInt8) : decode (encode bytes) = .ok bytes := by
  have heven : (bytesOf (encode bytes)).length % 2 = 0 := by
    rw [bytesOf_encode]
    induction bytes with
    | nil => rfl
    | cons byte bytes ih => rw [List.flatMap_cons, List.length_append]; simp only [List.length]; omega
  rw [decode, heven]
  exact decodePairs_bytesOf bytes 0

end Hex

namespace Scalar

theorem pieceMap_toHex (m : PieceMap) : pieceMap (some m.toHex) = .ok m := by
  rw [pieceMap, PieceMap.ofHex, PieceMap.toHex, Hex.decode_encode]
  rfl

/-! ### Numbers and flags -/

theorem below_eq_ok_iff {bound n : Nat} {field text : String} :
    below bound field (some text) = .ok n ↔ Decimal.natural? text.toList = some n ∧ n < bound := by
  simp only [below]
  cases Decimal.natural? text.toList with
  | none => exact ⟨nofun, nofun⟩
  | some k =>
    dsimp only
    split
    next hk =>
      rw [Except.ok.injEq, Option.some.injEq]
      exact ⟨fun h => ⟨h, h ▸ hk⟩, fun h => h.1⟩
    next hk =>
      rw [Option.some.injEq]
      exact ⟨nofun, fun h => absurd (h.1 ▸ h.2) hk⟩

/-- A counter is the number of its numeral. -/
theorem counter_eq_ok_iff {field text : String} {n : UInt64} :
    counter field (some text) = .ok n ↔ Decimal.natural? text.toList = some n.toNat := by
  simp only [counter, map_eq_ok_iff, below_eq_ok_iff]
  constructor
  · rintro ⟨k, ⟨hnumber, hk⟩, rfl⟩
    rw [hnumber, UInt64.toNat_ofNat_of_lt' hk]
  · exact fun hnumber => ⟨n.toNat, ⟨hnumber, n.toNat_lt⟩, UInt64.ofNat_toNat⟩

/-- An error code is the code of the number of its numeral. -/
theorem exitCode_eq_ok_iff {field text : String} {code : ExitCode} :
    exitCode field (some text) = .ok code ↔
      ∃ n : UInt32, Decimal.natural? text.toList = some n.toNat ∧ ExitCode.ofNumber n = code := by
  simp only [exitCode, map_eq_ok_iff, below_eq_ok_iff]
  constructor
  · rintro ⟨k, ⟨hnumber, hk⟩, hcode⟩
    exact ⟨UInt32.ofNat k, by rw [hnumber, UInt32.toNat_ofNat_of_lt' hk], hcode⟩
  · rintro ⟨n, hnumber, hcode⟩
    exact ⟨n.toNat, ⟨hnumber, n.toNat_lt⟩, by rw [UInt32.ofNat_toNat, hcode]⟩

/-- A flag is read of its two texts only. -/
theorem flag_eq_ok_iff {field text : String} {b : Bool} :
    flag field (some text) = .ok b ↔ text = flagText b := by
  simp only [flag]
  split
  next h => subst h; cases b <;> simp [flagText]
  next htrue =>
    split
    next h => subst h; cases b <;> simp [flagText]
    next hfalse => cases b <;> simp [flagText, htrue, hfalse]

/-- A numeral below the bound is read as its number. -/
theorem below_ofNatural {bound n : Nat} (hn : n < bound) (field : String) :
    below bound field (some (String.ofList (Decimal.ofNatural n))) = .ok n := by
  simp [below, hn]

@[simp] theorem counter_counterText (field : String) (n : UInt64) :
    counter field (some (counterText n)) = .ok n := by
  rw [counter, counterText, below_ofNatural n.toNat_lt]
  exact congrArg Except.ok (UInt64.ofNat_toNat)

/-- The number of an error code, written as a counter is, is read as the code of the number. -/
@[simp] theorem exitCode_counterText (field : String) (n : UInt32) :
    exitCode field (some (counterText n.toUInt64)) = .ok (.ofNumber n) := by
  rw [exitCode, counterText, UInt32.toNat_toUInt64, below_ofNatural n.toNat_lt]
  simp [Except.map]

@[simp] theorem flag_flagText (field : String) (b : Bool) :
    flag field (some (flagText b)) = .ok b := by
  cases b <;> rfl

@[simp] theorem getD_unlessEmpty (s : String) : (unlessEmpty s).getD "" = s := by
  unfold unlessEmpty
  split
  next h => exact h.symm
  next => rfl

/-! ### Instants -/

theorem integer?_ofNatural (n : Nat) : Decimal.integer? (Decimal.ofNatural n) = some (n : Int) := by
  obtain ⟨hnumeral, hnumber⟩ := Decimal.natural?_eq_some_iff.1 (Decimal.natural?_ofNatural n)
  rw [Decimal.integer?_of_isNumeral hnumeral, hnumber]

theorem integer?_ofInteger (n : Int) : Decimal.integer? (Decimal.ofInteger n) = some n := by
  cases n with
  | ofNat n => exact integer?_ofNatural n
  | negSucc n =>
    rw [Decimal.ofInteger, Decimal.integer?, Decimal.natural?_ofNatural, Int.negSucc_eq]
    rfl

/-- The seconds of every instant fit into 64 bits. -/
theorem seconds_fit (t : Instant) :
    -9223372036854775808 ≤ t.seconds ∧ t.seconds < 9223372036854775808 := by
  have hseconds := t.inRange
  simp only [firstSecond, lastSecond] at hseconds
  omega

/-- An instant is the integer of its text. -/
theorem instant_eq_ok_iff {field text : String} {t : Instant} :
    instant field text = .ok t ↔ Decimal.integer? text.toList = some t.seconds := by
  constructor
  · intro h
    unfold instant at h
    split at h
    next n hn =>
      split at h
      · split at h
        next u hu =>
          cases h
          rw [hn, Instant.ofSeconds?_eq_some_iff.1 hu]
        next => exact nomatch h
      · exact nomatch h
    next => exact nomatch h
  · intro h
    have ht : Instant.ofSeconds? t.seconds = some t := Instant.ofSeconds?_eq_some_iff.2 rfl
    simp only [instant, h, if_pos (seconds_fit t), ht]

/-- The seconds of an instant are read as the instant. -/
@[simp] theorem instant_numeral (field : String) (t : Instant) :
    instant field t.numeral = .ok t := by
  rw [instant_eq_ok_iff, Instant.numeral, String.toList_ofList, integer?_ofInteger]

/-! ### What is refused -/

theorem below_eq_error_iff {bound : Nat} {field text : String} {e : DecodeError} :
    below bound field (some text) = .error e ↔
      (∀ n, Decimal.natural? text.toList = some n → ¬n < bound) ∧ e = .malformedNumber field text := by
  simp only [below]
  cases Decimal.natural? text.toList with
  | none => simp [eq_comm]
  | some k =>
    dsimp only
    split
    next hk => exact ⟨nofun, fun h => absurd hk (h.1 k rfl)⟩
    next hk =>
      constructor
      · rintro ⟨⟩
        exact ⟨fun n hn => Option.some.inj hn ▸ hk, rfl⟩
      · rintro ⟨_, rfl⟩
        rfl

theorem flag_eq_error_iff {field text : String} {e : DecodeError} :
    flag field (some text) = .error e ↔ text ≠ "true" ∧ text ≠ "false" ∧
      e = .typeMismatch field ("expected \"true\" or \"false\", got " ++ Text.quoted text) := by
  simp only [flag]
  split
  next htrue => simp [htrue]
  next htrue =>
    split
    next hfalse => simp [hfalse]
    next hfalse => simp [htrue, hfalse, eq_comm]

/-- An instant is refused because there is no integer that 64 bits can hold, or because no second of the
    calendar is that integer's. -/
theorem instant_eq_error_iff {field text : String} {e : DecodeError} :
    instant field text = .error e ↔
      ((∀ n, Decimal.integer? text.toList = some n →
          ¬(-9223372036854775808 ≤ n ∧ n < 9223372036854775808)) ∧
        e = .typeMismatch field (notANumber text)) ∨
      ∃ n, Decimal.integer? text.toList = some n ∧
        (-9223372036854775808 ≤ n ∧ n < 9223372036854775808) ∧
        ¬(firstSecond ≤ n ∧ n ≤ lastSecond) ∧ e = .typeMismatch field (outOfRange n) := by
  unfold instant
  cases Decimal.integer? text.toList with
  | none => simp [eq_comm]
  | some n =>
    dsimp only
    by_cases hfits : -9223372036854775808 ≤ n ∧ n < 9223372036854775808
    · rw [if_pos hfits]
      cases ht : Instant.ofSeconds? n with
      | some t =>
        have hrange : firstSecond ≤ n ∧ n ≤ lastSecond :=
          Instant.ofSeconds?_eq_some_iff.1 ht ▸ t.inRange
        refine ⟨nofun, ?_⟩
        rintro (⟨h, _⟩ | ⟨_, ⟨⟩, _, h, _⟩)
        · exact absurd hfits (h n rfl)
        · exact absurd hrange h
      | none =>
        have hrange := Instant.ofSeconds?_eq_none_iff.1 ht
        constructor
        · rintro ⟨⟩
          exact .inr ⟨n, rfl, hfits, hrange, rfl⟩
        · rintro (⟨h, _⟩ | ⟨_, ⟨⟩, _, _, rfl⟩)
          · exact absurd hfits (h n rfl)
          · rfl
    · rw [if_neg hfits]
      constructor
      · rintro ⟨⟩
        exact .inl ⟨fun _ hn => Option.some.inj hn ▸ hfits, rfl⟩
      · rintro (⟨_, rfl⟩ | ⟨_, ⟨⟩, h, _⟩)
        · rfl
        · exact absurd h hfits

/-- A counter that is refused is refused with its field. -/
theorem below_refused {bound : Nat} {field : String} {raw : Option String} {e : DecodeError}
    (h : below bound field raw = .error e) : e.field? = some field := by
  cases raw with
  | none => exact nomatch h
  | some text =>
    obtain ⟨_, rfl⟩ := below_eq_error_iff.1 h
    rfl

theorem counter_refused {field : String} {raw : Option String} {e : DecodeError}
    (h : counter field raw = .error e) : e.field? = some field :=
  below_refused (map_eq_error_iff.1 h)

theorem exitCode_refused {field : String} {raw : Option String} {e : DecodeError}
    (h : exitCode field raw = .error e) : e.field? = some field :=
  below_refused (map_eq_error_iff.1 h)

theorem flag_refused {field : String} {raw : Option String} {e : DecodeError}
    (h : flag field raw = .error e) : e.field? = some field := by
  cases raw with
  | none => exact nomatch h
  | some text =>
    obtain ⟨_, _, rfl⟩ := flag_eq_error_iff.1 h
    rfl

theorem pieceMap_refused {raw : Option String} {e : DecodeError} (h : pieceMap raw = .error e) :
    e.field? = some "bitfield" := by
  cases raw with
  | none => exact nomatch h
  | some text =>
    obtain ⟨_, _, rfl⟩ := mapError_eq_error_iff.1 h
    rfl

theorem instant_refused {field raw : String} {e : DecodeError} (h : instant field raw = .error e) :
    e.field? = some field := by
  rcases instant_eq_error_iff.1 h with ⟨_, rfl⟩ | ⟨_, _, _, _, rfl⟩ <;> rfl

end Scalar

end DownloadReport

import DownloadReport.Json.Printer
import DownloadReport.Proofs.Denotation

/-! Strings and integers as they are written. Both are spelled well, and what is written can be had back:
    each character of a string stands in it as one piece (`decode_pieces`), and the digits of an
    integer of 64 bits are taken up to the last (`value_integerText`). -/

namespace DownloadReport.Json

/-! ### Strings -/

/-- The piece as which a character is written: a control without a letter of its own as its code
    unit, every other character as itself. -/
def charPiece (c : Char) : StringPiece :=
  if c < ' ' ∧ c ∉ ['\x08', '\x0c', '\n', '\r', '\t'] then .unit c.toNat else .char c

/-- The digits of a control stand for it. -/
theorem codeUnit_control {c : Char} (hc : c < ' ') :
    codeUnit? '0' '0' (Hex.digit (c.toNat / 16)) (Hex.digit (c.toNat % 16)) = some c.toNat := by
  have hall : ∀ n < 32, codeUnit? '0' '0' (Hex.digit (n / 16)) (Hex.digit (n % 16)) = some n := by
    decide
  exact hall c.toNat hc

/-- A written character spells its piece. -/
theorem spells_writeChar (c : Char) {cs : List Char} {ps : List StringPiece}
    (h : SpellsString cs ps) : SpellsString (writeChar c ++ cs) (charPiece c :: ps) := by
  by_cases hletter : c ∈ ['"', '\\', '\x08', '\x0c', '\n', '\r', '\t']
  · simp only [List.mem_cons, List.not_mem_nil, or_false] at hletter
    rcases hletter with rfl | rfl | rfl | rfl | rfl | rfl | rfl <;> exact .escape rfl h
  · simp only [List.mem_cons, List.not_mem_nil, or_false, not_or] at hletter
    obtain ⟨hquote, hslash, hb, hf, hn, hr, ht⟩ := hletter
    by_cases hcontrol : c < ' '
    · have hpiece : charPiece c = .unit c.toNat := by
        simp [charPiece, hcontrol, hb, hf, hn, hr, ht]
      simp only [writeChar, hquote, hslash, hb, hf, hn, hr, ht, hcontrol, if_false, if_true, hpiece]
      exact .unit (codeUnit_control hcontrol) h
    · have hpiece : charPiece c = .char c := by simp [charPiece, hcontrol]
      simp only [writeChar, hquote, hslash, hb, hf, hn, hr, ht, hcontrol, if_false, hpiece]
      exact .plain hquote hslash hcontrol h

/-- A written string spells the pieces of its characters. -/
theorem spells_writeString (s : String) :
    ∃ cs, writeString s = '"' :: cs ∧ SpellsString cs (s.toList.map charPiece) := by
  refine ⟨s.toList.flatMap writeChar ++ ['"'], by simp [writeString], ?_⟩
  induction s.toList with
  | nil => exact .close
  | cons c cs ih =>
    rw [List.flatMap_cons, List.append_assoc, List.map_cons]
    exact spells_writeChar c ih

/-- A piece denotes its character: a control is no surrogate. -/
theorem decodePieces_charPiece (c : Char) (ps : List StringPiece) :
    decodePieces .closed (charPiece c :: ps) = (decodePieces .closed ps).map (c :: ·) := by
  unfold charPiece
  split
  next h =>
    have hc : c.toNat < 32 := h.1
    have htrailing : isTrailingSurrogate c.toNat = false := by
      simp only [isTrailingSurrogate, Bool.and_eq_false_iff, decide_eq_false_iff_not]
      omega
    have hleading : isLeadingSurrogate c.toNat = false := by
      simp only [isLeadingSurrogate, Bool.and_eq_false_iff, decide_eq_false_iff_not]
      omega
    rw [decodePieces.eq_def]
    simp only [htrailing, hleading, Bool.false_eq_true, if_false, Char.ofNat_toNat]
  next => rw [decodePieces]

/-- The pieces of a text denote the text. -/
theorem decode_pieces (s : String) :
    (⟨s.toList.map charPiece, .closed⟩ : StringText).decode = .ok s := by
  have hpieces : ∀ cs : List Char, decodePieces .closed (cs.map charPiece) = .ok cs := by
    intro cs
    induction cs with
    | nil => rfl
    | cons c cs ih => rw [List.map_cons, decodePieces_charPiece, ih]; rfl
  rw [StringText.decode, hpieces]
  exact congrArg Except.ok (String.ofList_toList)

/-! ### Integers -/

/-- A numeral does not begin with a zero, unless it is zero. -/
theorem head_ofNatural {n : Nat} (hn : 0 < n) : (Decimal.ofNatural n).head? ≠ some '0' := by
  unfold Decimal.ofNatural
  induction n using Nat.base_induction 10 (by decide) with
  | single m hm =>
    have hall : ∀ m < 10, 0 < m → m.digitChar ≠ '0' := by decide
    rw [Nat.toDigits_of_lt_base hm, List.head?_cons]
    exact fun h => hall m hm hn (Option.some.inj h)
  | digit m k hk hm ih =>
    obtain ⟨d, ds, hd⟩ := List.exists_cons_of_ne_nil (Nat.toDigits_ne_nil (n := m) (b := 10))
    rw [hd] at ih
    rw [← Nat.toDigits_append_toDigits (by decide) hm hk, hd]
    exact ih hm

theorem isWhole_ofNatural (n : Nat) : IsWhole (Decimal.ofNatural n) := by
  refine ⟨Decimal.isNumeral_ofNatural n, fun hhead => ?_⟩
  rcases Nat.eq_zero_or_pos n with rfl | hn
  · rfl
  · exact absurd hhead (head_ofNatural hn)

/-- Digits of a number that 64 bits can hold are all taken. -/
theorem takeDigits_eq {ds : List Char} {start : Nat}
    (h : Nat.ofDigitChars 10 ds start < UInt64.size) :
    takeDigits start ds = (Nat.ofDigitChars 10 ds start, []) := by
  induction ds generalizing start with
  | nil => rw [takeDigits, Nat.ofDigitChars_nil]
  | cons c ds ih =>
    rw [Nat.ofDigitChars_cons] at h ⊢
    have hgrown : 10 * start + (c.toNat - '0'.toNat) < UInt64.size := by
      rw [Nat.ofDigitChars_eq_ofDigitChars_zero] at h
      have hpow : 0 < 10 ^ ds.length := Nat.pow_pos (by decide)
      have := Nat.le_mul_of_pos_left (10 * start + (c.toNat - '0'.toNat)) hpow
      omega
    rw [takeDigits, if_pos hgrown, ih h]

/-- How an integer is written. -/
def integerText (n : Int) : NumberText :=
  { negative := decide (n < 0), whole := Decimal.ofNatural n.natAbs : NumberText }

theorem spells_integer (n : Int) : SpellsNumber (Decimal.ofInteger n) (integerText n) := by
  cases n with
  | ofNat n =>
    have h := SpellsNumber.unsigned (isWhole_ofNatural n) .absent .absent
    have hsign : decide ((n : Int) < 0) = false := by simp
    simpa [integerText, Decimal.ofInteger, hsign] using h
  | negSucc n =>
    have h := SpellsNumber.negative (isWhole_ofNatural (n + 1)) .absent .absent
    have hsign : decide (Int.negSucc n < 0) = true := by simp
    simpa [integerText, Decimal.ofInteger, hsign] using h

/-- A written integer denotes the integer. -/
theorem value_integerText (n : Int) (fits : -9223372036854775808 ≤ n ∧ n < 18446744073709551616) :
    (integerText n).value = .ok (.integer n fits) := by
  have hdigits : Nat.ofDigitChars 10 (Decimal.ofNatural n.natAbs) 0 = n.natAbs :=
    Nat.ofDigitChars_toDigits (by decide) (by decide)
  have hsize : n.natAbs < UInt64.size := by
    have : UInt64.size = 18446744073709551616 := rfl
    omega
  have htaken : takeDigits 0 (Decimal.ofNatural n.natAbs) = (n.natAbs, []) := by
    rw [takeDigits_eq (by rw [hdigits]; exact hsize), hdigits]
  have hinteger : integerOf (decide (n < 0)) n.natAbs = .integer n fits := by
    by_cases hn : n < 0
    · have hbound : 0 < n.natAbs ∧ n.natAbs ≤ 9223372036854775808 := by omega
      simp only [integerOf, hn, decide_true, if_true, dif_pos hbound, Number.integer.injEq]
      omega
    · have hbound : n.natAbs < 18446744073709551616 := by omega
      simp only [integerOf, hn, decide_false, Bool.false_eq_true, if_false, dif_pos hbound,
        Number.integer.injEq]
      omega
  simp [NumberText.value, integerText, htaken, hinteger]

end DownloadReport.Json

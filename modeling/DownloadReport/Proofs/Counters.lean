import DownloadReport.Proofs.Canonical
import DownloadReport.Proofs.Numerals
import Mathlib.Data.Nat.Digits.Defs

/-! Numbers of a bounded size in reports. A text is accepted when it is a numeral whose number is below
    the bound, however many zeros stand in front, and then it is read as just that number; any other
    text is refused as it is. So a number that does not fit is never taken for one that does
    (`counters_exact`). -/

namespace DownloadReport

open Json (IsWhole isWhole_ofNatural)

namespace Decimal

/-! ### The number of a numeral -/

/-- The number that a digit stands for. -/
def digitValue (c : Char) : Nat := c.toNat - '0'.toNat

/-- The number that digits stand for: at each place ten times as much as at the place behind it. -/
def placeValue (ds : List Char) : Nat := Nat.ofDigits 10 (ds.reverse.map digitValue)

theorem placeValue_append_singleton (ds : List Char) (c : Char) :
    placeValue (ds ++ [c]) = 10 * placeValue ds + digitValue c := by
  rw [placeValue, List.reverse_append, List.reverse_singleton, List.singleton_append, List.map_cons,
    Nat.ofDigits_cons, Nat.add_comm]
  rfl

theorem ofDigitChars_eq_placeValue (ds : List Char) : Nat.ofDigitChars 10 ds 0 = placeValue ds := by
  induction ds using List.reverseRecOn with
  | nil => rfl
  | append_singleton ds c ih =>
    rw [Nat.ofDigitChars_append, Nat.ofDigitChars_cons, Nat.ofDigitChars_nil, ih,
      placeValue_append_singleton]
    rfl

/-- Zeros in front count nothing. -/
theorem placeValue_zeros (zeros : Nat) (ds : List Char) :
    placeValue (List.replicate zeros '0' ++ ds) = placeValue ds := by
  rw [← ofDigitChars_eq_placeValue, ← ofDigitChars_eq_placeValue, Nat.ofDigitChars_append]
  congr 1
  induction zeros with
  | zero => rfl
  | succ zeros ih => rw [List.replicate_succ, Nat.ofDigitChars_cons]; exact ih

/-- Whatever digits are behind, the number does not get smaller. -/
theorem placeValue_take_le (ds : List Char) (i : Nat) : placeValue (ds.take i) ≤ placeValue ds := by
  have hle : ∀ (es : List Char) (n : Nat), n ≤ Nat.ofDigitChars 10 es n := by
    intro es
    induction es with
    | nil => exact fun n => Nat.le_refl n
    | cons c es ih =>
      intro n
      rw [Nat.ofDigitChars_cons]
      exact Nat.le_trans (by omega) (ih _)
  calc placeValue (ds.take i)
    _ ≤ Nat.ofDigitChars 10 (ds.drop i) (placeValue (ds.take i)) := hle _ _
    _ = placeValue ds := by
      rw [← ofDigitChars_eq_placeValue, ← ofDigitChars_eq_placeValue, ← Nat.ofDigitChars_append,
        List.take_append_drop]

/-- What is written of a number stands for it. -/
theorem placeValue_ofNatural (n : Nat) : placeValue (ofNatural n) = n := by
  rw [← ofDigitChars_eq_placeValue]
  exact (natural?_eq_some_iff.1 (natural?_ofNatural n)).2

/-- Zeros in front of what is written make it no other number. -/
theorem isNumeral_zeros (zeros n : Nat) : IsNumeral (List.replicate zeros '0' ++ ofNatural n) := by
  obtain ⟨hne, hdigits⟩ := isNumeral_ofNatural n
  refine ⟨List.append_ne_nil_of_right_ne_nil _ hne, fun c hc => ?_⟩
  rcases List.mem_append.1 hc with hc | hc
  · rw [List.eq_of_mem_replicate hc]
    rfl
  · exact hdigits c hc

/-- A numeral is the shortest one of its number behind zeros. -/
theorem exists_zeros {ds : List Char} (h : IsNumeral ds) :
    ∃ zeros, ds = List.replicate zeros '0' ++ ofNatural (placeValue ds) := by
  induction ds with
  | nil => exact absurd rfl h.1
  | cons c ds ih =>
    by_cases hwhole : IsWhole (c :: ds)
    · refine ⟨0, ?_⟩
      rw [← ofDigitChars_eq_placeValue, ofNatural_of_isWhole hwhole]
      rfl
    · have hzero : c = '0' ∧ (c = '0' → ds ≠ []) := by simpa [IsWhole, h] using hwhole
      obtain ⟨rfl, hne⟩ : c = '0' ∧ ds ≠ [] := ⟨hzero.1, hzero.2 hzero.1⟩
      obtain ⟨zeros, hds⟩ := ih ⟨hne, fun d hd => h.2 d (List.mem_cons_of_mem _ hd)⟩
      refine ⟨zeros + 1, ?_⟩
      rw [show placeValue ('0' :: ds) = placeValue ds from placeValue_zeros 1 ds,
        List.replicate_succ, List.cons_append, ← hds]

end Decimal

namespace Scalar

open Decimal (IsNumeral placeValue)

/-! ### Numbers below a bound -/

/-- A text that stands for a number below `size`. -/
def Fits (size : Nat) (raw : String) : Prop := IsNumeral raw.toList ∧ placeValue raw.toList < size

section Below

variable {size : Nat} {field raw : String}

theorem natural?_eq_some_iff_placeValue {n : Nat} :
    Decimal.natural? raw.toList = some n ↔ IsNumeral raw.toList ∧ placeValue raw.toList = n := by
  rw [Decimal.natural?_eq_some_iff, Decimal.ofDigitChars_eq_placeValue]

theorem below_ok_iff_fits {n : Nat} :
    below size field (some raw) = .ok n ↔ Fits size raw ∧ placeValue raw.toList = n := by
  rw [below_eq_ok_iff, natural?_eq_some_iff_placeValue]
  constructor
  · rintro ⟨⟨hnumeral, rfl⟩, hn⟩
    exact ⟨⟨hnumeral, hn⟩, rfl⟩
  · rintro ⟨⟨hnumeral, hn⟩, rfl⟩
    exact ⟨⟨hnumeral, rfl⟩, hn⟩

theorem below_error_iff_fits {e : DecodeError} :
    below size field (some raw) = .error e ↔ ¬Fits size raw ∧ e = .malformedNumber field raw := by
  rw [below_eq_error_iff]
  refine and_congr_left' ⟨fun h hfits => ?_, fun h n hn hlt => ?_⟩
  · exact h _ (natural?_eq_some_iff_placeValue.2 ⟨hfits.1, rfl⟩) hfits.2
  · obtain ⟨hnumeral, rfl⟩ := natural?_eq_some_iff_placeValue.1 hn
    exact h ⟨hnumeral, hlt⟩

end Below

/-! ### Numbers of a type -/

/-- A type that holds the numbers below `size`, each once. -/
structure Holds {ν : Type} (size : Nat) (number : ν → Nat) (ofNat : Nat → ν) : Prop where
  lt : ∀ n, number n < size
  number_ofNat : ∀ k < size, number (ofNat k) = k
  ofNat_number : ∀ n, ofNat (number n) = n

theorem holds_uint64 : Holds UInt64.size UInt64.toNat UInt64.ofNat :=
  ⟨UInt64.toNat_lt, fun _ => UInt64.toNat_ofNat_of_lt', fun _ => UInt64.ofNat_toNat⟩

theorem holds_uint32 : Holds UInt32.size UInt32.toNat UInt32.ofNat :=
  ⟨UInt32.toNat_lt, fun _ => UInt32.toNat_ofNat_of_lt', fun _ => UInt32.ofNat_toNat⟩

/-- A reader and a writer of numbers below `size`, which are kept as a `ν` and made an `α`. -/
structure Exact {ν α : Type} (size : Nat) (number : ν → Nat) (make : ν → α) (write : ν → String)
    (field : String) (read : String → Except DecodeError α) : Prop where
  /-- What is accepted is the number of the text, and no other. -/
  accepted_iff : ∀ raw a, read raw = .ok a ↔
    Fits size raw ∧ ∃ n, number n = placeValue raw.toList ∧ make n = a
  /-- What fits is accepted. -/
  accepts : ∀ raw, (∃ a, read raw = .ok a) ↔ Fits size raw
  /-- What does not fit is refused, with the text as it came. -/
  refused_iff : ∀ raw e, read raw = .error e ↔ ¬Fits size raw ∧ e = .malformedNumber field raw
  /-- No number on the way to the whole is larger than it. -/
  fits_on_the_way : ∀ raw n i, read raw = .ok (make n) → placeValue (raw.toList.take i) ≤ number n
  read_write : ∀ n, read (write n) = .ok (make n)
  /-- A number is read of what is written for it, behind any zeros, and of nothing else. -/
  spelled_iff : ∀ raw n, read raw = .ok (make n) ↔
    ∃ zeros, raw.toList = List.replicate zeros '0' ++ (write n).toList
  /-- What is written has no needless zeros. -/
  shortest : ∀ n, IsWhole (write n).toList

section Exact

variable {ν α : Type} {size : Nat} {number : ν → Nat} {ofNat : Nat → ν} {make : ν → α}
  {field raw : String}

/-- Reads a number below a bound, to be kept as a `ν` and made an `α`. -/
def readBelow (size : Nat) (ofNat : Nat → ν) (make : ν → α) (field raw : String) :
    Except DecodeError α :=
  (below size field (some raw)).map fun k => make (ofNat k)

theorem readBelow_eq_ok_iff (h : Holds size number ofNat) {a : α} :
    readBelow size ofNat make field raw = .ok a ↔
      Fits size raw ∧ ∃ n, number n = placeValue raw.toList ∧ make n = a := by
  simp only [readBelow, map_eq_ok_iff, below_ok_iff_fits]
  constructor
  · rintro ⟨_, ⟨hfits, rfl⟩, rfl⟩
    exact ⟨hfits, _, h.number_ofNat _ hfits.2, rfl⟩
  · rintro ⟨hfits, n, hn, rfl⟩
    exact ⟨_, ⟨hfits, rfl⟩, by rw [← hn, h.ofNat_number]⟩

theorem readBelow_eq_make_iff (h : Holds size number ofNat) (hmake : Function.Injective make)
    {n : ν} :
    readBelow size ofNat make field raw = .ok (make n) ↔
      IsNumeral raw.toList ∧ placeValue raw.toList = number n := by
  rw [readBelow_eq_ok_iff h]
  constructor
  · rintro ⟨hfits, m, hm, hmn⟩
    exact ⟨hfits.1, by rw [← hm, hmake hmn]⟩
  · rintro ⟨hnumeral, hn⟩
    exact ⟨⟨hnumeral, hn ▸ h.lt n⟩, n, hn.symm, rfl⟩

theorem readBelow_spelled_iff (h : Holds size number ofNat) (hmake : Function.Injective make)
    {n : ν} :
    readBelow size ofNat make field raw = .ok (make n) ↔
      ∃ zeros, raw.toList = List.replicate zeros '0' ++ Decimal.ofNatural (number n) := by
  rw [readBelow_eq_make_iff h hmake]
  constructor
  · rintro ⟨hnumeral, hn⟩
    rw [← hn]
    exact Decimal.exists_zeros hnumeral
  · rintro ⟨zeros, hraw⟩
    rw [hraw, Decimal.placeValue_zeros, Decimal.placeValue_ofNatural]
    exact ⟨Decimal.isNumeral_zeros zeros _, rfl⟩

/-- What is read below a bound is read exactly, if the type holds it and nothing is lost of it. -/
theorem exact_readBelow (h : Holds size number ofNat) (hmake : Function.Injective make)
    (field : String) :
    Exact size number make (fun n => String.ofList (Decimal.ofNatural (number n))) field
      (readBelow size ofNat make field) where
  accepted_iff raw a := readBelow_eq_ok_iff h
  accepts raw := by
    simp only [readBelow_eq_ok_iff h]
    constructor
    · rintro ⟨_, hfits, _⟩
      exact hfits
    · exact fun hfits => ⟨_, hfits, _, h.number_ofNat _ hfits.2, rfl⟩
  refused_iff raw e := map_eq_error_iff.trans below_error_iff_fits
  fits_on_the_way raw n i hread :=
    (Decimal.placeValue_take_le _ i).trans_eq ((readBelow_eq_make_iff h hmake).1 hread).2
  read_write n := (readBelow_spelled_iff h hmake).2 ⟨0, String.toList_ofList⟩
  spelled_iff raw n := by
    rw [String.toList_ofList]
    exact readBelow_spelled_iff h hmake
  shortest n := by
    rw [String.toList_ofList]
    exact isWhole_ofNatural _

end Exact

/-! ### Counters and error codes -/

theorem exact_counter (field : String) :
    Exact UInt64.size UInt64.toNat id counterText field fun raw => counter field (some raw) :=
  exact_readBelow holds_uint64 Function.injective_id field

theorem exact_exitCode (field : String) :
    Exact UInt32.size UInt32.toNat ExitCode.ofNumber (fun n => counterText n.toUInt64) field
      fun raw => exitCode field (some raw) :=
  have hmake : Function.Injective ExitCode.ofNumber :=
    Function.LeftInverse.injective ExitCode.number_ofNumber
  exact_readBelow holds_uint32 hmake field

/-- An error code is a counter that is no larger than error codes are. -/
theorem exitCode_eq_narrowed (field : String) (raw : Option String) :
    exitCode field raw = counter field raw >>= fun n =>
      if n.toNat < UInt32.size then .ok (.ofNumber n.toUInt32)
      else .error (.malformedNumber field (raw.getD "")) := by
  cases raw with
  | none => rfl
  | some raw =>
    have hcounter := exact_counter field
    have hcode := exact_exitCode field
    cases hread : counter field (some raw) with
    | error e =>
      obtain ⟨hfits, rfl⟩ := (hcounter.refused_iff raw e).1 hread
      refine (hcode.refused_iff raw _).2 ⟨fun h => hfits ⟨h.1, h.2.trans ?_⟩, rfl⟩
      decide
    | ok n =>
      obtain ⟨hfits, m, hm, rfl⟩ := (hcounter.accepted_iff raw n).1 hread
      simp only [ok_bind, id, hm, Option.getD_some]
      split
      next hlt =>
        refine (hcode.accepted_iff raw _).2 ⟨⟨hfits.1, hlt⟩, _, ?_, rfl⟩
        rw [UInt64.toNat_toUInt32, hm]
        exact Nat.mod_eq_of_lt hlt
      next hlt => exact (hcode.refused_iff raw _).2 ⟨fun h => hlt h.2, rfl⟩

/-- Counters and error codes are read exactly, whatever field they are of: counters below 2 to the 64th,
    error codes below 2 to the 32nd. An error code is read as a counter first, and one that is too
    large is refused with the text of it. -/
theorem counters_exact (field : String) :
    Exact UInt64.size UInt64.toNat id counterText field (fun raw => counter field (some raw)) ∧
      Exact UInt32.size UInt32.toNat ExitCode.ofNumber (fun n => counterText n.toUInt64) field
        (fun raw => exitCode field (some raw)) ∧
      ∀ raw : Option String, exitCode field raw = counter field raw >>= fun n =>
        if n.toNat < UInt32.size then .ok (.ofNumber n.toUInt32)
        else .error (.malformedNumber field (raw.getD "")) :=
  ⟨exact_counter field, exact_exitCode field, exitCode_eq_narrowed field⟩

/-- The greatest counter is read with zeros in front of it, and one more is refused. -/
example : counter "length" (some "0018446744073709551615") = .ok 18446744073709551615 ∧
    counter "length" (some "18446744073709551616") =
      .error (.malformedNumber "length" "18446744073709551616") := by
  constructor <;> cbv

end Scalar

end DownloadReport

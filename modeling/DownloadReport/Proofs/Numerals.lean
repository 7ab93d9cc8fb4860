import DownloadReport.Proofs.Written
import Mathlib.Data.List.Induction

/-! Numerals and the shortest ones among them. A number has many numerals, with zeros or a plus sign in
    front, but one shortest numeral, and that is the one that is written
    (`ofNatural_eq_iff`, `ofInteger_eq_iff`). -/

namespace DownloadReport.Decimal

open Json (IsWhole isWhole_ofNatural)

/-! ### Natural numbers -/

/-- A digit is the digit of its value. -/
theorem digitChar_of_isDigit {c : Char} (h : c.isDigit = true) :
    c.toNat - '0'.toNat < 10 ∧ (c.toNat - '0'.toNat).digitChar = c := by
  have hall : ∀ n < 10, (48 + n - '0'.toNat).digitChar = Char.ofNat (48 + n) := by decide
  obtain ⟨hlow, hhigh⟩ : 48 ≤ c.toNat ∧ c.toNat ≤ 57 := by
    simp only [Char.isDigit, Bool.and_eq_true, decide_eq_true_eq] at h
    exact h
  have hchar := hall (c.toNat - 48) (by omega)
  rw [Nat.add_sub_cancel' hlow, Char.ofNat_toNat] at hchar
  exact ⟨by have : '0'.toNat = 48 := rfl; omega, hchar⟩

/-- A numeral without needless zeros is the one that its number is written with. -/
theorem ofNatural_of_isWhole {ds : List Char} (h : IsWhole ds) :
    ofNatural (Nat.ofDigitChars 10 ds 0) = ds := by
  induction ds using List.reverseRecOn with
  | nil => exact absurd rfl h.1.1
  | append_singleton ds c ih =>
    obtain ⟨⟨_, hdigits⟩, hzero⟩ := h
    obtain ⟨hlast, hc⟩ := digitChar_of_isDigit (hdigits c (by simp))
    by_cases hne : ds = []
    · subst hne
      rw [List.nil_append, Nat.ofDigitChars_cons, Nat.ofDigitChars_nil, ofNatural, Nat.mul_zero,
        Nat.zero_add, Nat.toDigits_of_lt_base hlast, hc]
    · -- The digits before the last one begin as all of them do, so with no zero.
      have hhead : ds.head? ≠ some '0' := fun hds => by
        have hwhole := hzero (by rw [List.head?_append_of_ne_nil _ hne, hds])
        exact hne (by simpa using congrArg List.length hwhole)
      have hds := ih ⟨⟨hne, fun x hx => hdigits x (List.mem_append_left _ hx)⟩,
        fun hds => absurd hds hhead⟩
      have hpos : 0 < Nat.ofDigitChars 10 ds 0 := by
        refine Nat.pos_of_ne_zero fun hnumber => hhead ?_
        rw [← hds, hnumber]
        rfl
      rw [Nat.ofDigitChars_append, Nat.ofDigitChars_cons, Nat.ofDigitChars_nil, ofNatural,
        ← Nat.toDigits_append_toDigits (by decide) hpos hlast, Nat.toDigits_of_lt_base hlast, hc]
      exact congrArg (· ++ [c]) hds

/-- Of the numerals of a number, the one that is written has no needless zeros. -/
theorem ofNatural_eq_iff {ds : List Char} {n : Nat} (h : natural? ds = some n) :
    ofNatural n = ds ↔ IsWhole ds := by
  obtain ⟨_, rfl⟩ := natural?_eq_some_iff.1 h
  constructor
  · intro hds
    rw [← hds]
    exact isWhole_ofNatural _
  · exact ofNatural_of_isWhole

/-! ### Integers -/

/-- A text that denotes an integer: digits behind at most one sign. -/
inductive DenotesInteger : List Char → Int → Prop where
  | unsigned {ds : List Char} (h : IsNumeral ds) : DenotesInteger ds (Nat.ofDigitChars 10 ds 0)
  | plus {ds : List Char} (h : IsNumeral ds) :
      DenotesInteger ('+' :: ds) (Nat.ofDigitChars 10 ds 0)
  | minus {ds : List Char} (h : IsNumeral ds) :
      DenotesInteger ('-' :: ds) (-(Nat.ofDigitChars 10 ds 0 : Int))

theorem integer?_eq_some_iff {s : List Char} {n : Int} :
    integer? s = some n ↔ DenotesInteger s n := by
  constructor
  · intro h
    have hnumeral : ∀ {ds : List Char} {f : Int → Int}, (natural? ds >>= fun k => some (k : Int)).map f =
        some n → IsNumeral ds ∧ f (Nat.ofDigitChars 10 ds 0) = n := by
      intro ds f hds
      cases hk : natural? ds with
      | none =>
        rw [hk] at hds
        exact nomatch hds
      | some k =>
        obtain ⟨hnumeral, rfl⟩ := natural?_eq_some_iff.1 hk
        rw [hk] at hds
        exact ⟨hnumeral, Option.some.inj hds⟩
    unfold integer? at h
    split at h
    · obtain ⟨hds, rfl⟩ := hnumeral h
      exact .minus hds
    · obtain ⟨hds, rfl⟩ := hnumeral h
      exact .plus hds
    · obtain ⟨hds, rfl⟩ := hnumeral h
      exact .unsigned hds
  · rintro (hnumeral | hnumeral | hnumeral)
    · exact integer?_of_isNumeral hnumeral
    · rw [integer?, natural?_eq_some_iff.2 ⟨hnumeral, rfl⟩]
      rfl
    · rw [integer?, natural?_eq_some_iff.2 ⟨hnumeral, rfl⟩]
      rfl

/-- The shortest text of an integer: no plus sign, no needless zeros, and no minus sign before zero. -/
inductive IsShortestInteger : List Char → Prop where
  | unsigned {ds : List Char} (h : IsWhole ds) : IsShortestInteger ds
  | minus {ds : List Char} (h : IsWhole ds) (hne : ds ≠ ['0']) : IsShortestInteger ('-' :: ds)

theorem isShortestInteger_ofInteger (n : Int) : IsShortestInteger (ofInteger n) := by
  cases n with
  | ofNat n => exact .unsigned (isWhole_ofNatural n)
  | negSucc n =>
    refine .minus (isWhole_ofNatural (n + 1)) fun hzero => ?_
    exact Json.head_ofNatural (Nat.succ_pos n) (by rw [hzero]; rfl)

theorem ofInteger_of_isShortest {s : List Char} {n : Int} (h : integer? s = some n)
    (hs : IsShortestInteger s) : ofInteger n = s := by
  cases hs with
  | unsigned hwhole =>
    cases (integer?_of_isNumeral hwhole.1).symm.trans h
    exact ofNatural_of_isWhole hwhole
  | @minus ds hwhole hne =>
    rw [integer?, natural?_eq_some_iff.2 ⟨hwhole.1, rfl⟩] at h
    cases h
    cases hnumber : Nat.ofDigitChars 10 ds 0 with
    | zero =>
      have hds := ofNatural_of_isWhole hwhole
      rw [hnumber] at hds
      exact absurd hds.symm hne
    | succ k =>
      show '-' :: ofNatural (k + 1) = '-' :: ds
      rw [← hnumber, ofNatural_of_isWhole hwhole]

/-- Of the texts of an integer, the one that is written is the shortest. -/
theorem ofInteger_eq_iff {s : List Char} {n : Int} (h : integer? s = some n) :
    ofInteger n = s ↔ IsShortestInteger s := by
  constructor
  · intro hs
    rw [← hs]
    exact isShortestInteger_ofInteger n
  · exact ofInteger_of_isShortest h

end DownloadReport.Decimal

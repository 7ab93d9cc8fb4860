/-! Numerals: whole numbers written with the ten ASCII digits, in any number of them, leading zeros
    included. Other digits of Unicode are not digits here. -/

namespace DownloadReport.Decimal

/-- Whether a text is one or more ASCII digits. -/
def IsNumeral (s : List Char) : Prop := s ≠ [] ∧ ∀ c ∈ s, c.isDigit = true

-- The characters of the text are looked at, and not all characters there are.
instance (s : List Char) : Decidable (IsNumeral s) :=
  @instDecidableAnd _ _ _ (List.decidableBAll _ s)

/-- The number that a numeral denotes; no other text denotes one. -/
def natural? (s : List Char) : Option Nat :=
  if IsNumeral s then some (Nat.ofDigitChars 10 s 0) else none

/-- The number that a numeral behind at most one sign denotes. -/
def integer? : List Char → Option Int
  | '-' :: s => (natural? s).map fun n => -(n : Int)
  | '+' :: s => (natural? s).map fun n => (n : Int)
  | s => (natural? s).map fun n => (n : Int)

/-- The shortest numeral of a number. -/
def ofNatural (n : Nat) : List Char := Nat.toDigits 10 n

/-- The shortest numeral of an integer, behind a minus sign if it is negative. -/
def ofInteger : Int → List Char
  | .ofNat n => ofNatural n
  | .negSucc n => '-' :: ofNatural (n + 1)

theorem isNumeral_ofNatural (n : Nat) : IsNumeral (ofNatural n) :=
  ⟨Nat.toDigits_ne_nil, fun _ h => Nat.isDigit_of_mem_toDigits (by decide) (by decide) h⟩

/-- A number's numeral denotes the number. -/
@[simp] theorem natural?_ofNatural (n : Nat) : natural? (ofNatural n) = some n := by
  rw [natural?, if_pos (isNumeral_ofNatural n), ofNatural,
    Nat.ofDigitChars_toDigits (by decide) (by decide)]

theorem natural?_eq_some_iff {s : List Char} {n : Nat} :
    natural? s = some n ↔ IsNumeral s ∧ Nat.ofDigitChars 10 s 0 = n := by
  unfold natural?
  split <;> simp_all

/-- A numeral begins with no sign, and so denotes the same as an integer. -/
theorem integer?_of_isNumeral {s : List Char} (h : IsNumeral s) :
    integer? s = some (Nat.ofDigitChars 10 s 0 : Int) := by
  obtain ⟨d, rest, rfl⟩ := List.exists_cons_of_ne_nil h.1
  have hdigit := h.2 d List.mem_cons_self
  have hminus : d ≠ '-' := by rintro rfl; simp at hdigit
  have hplus : d ≠ '+' := by rintro rfl; simp at hdigit
  have hnumber := natural?_eq_some_iff.2 ⟨h, rfl⟩
  simp [integer?, hminus, hplus, hnumber]

end DownloadReport.Decimal

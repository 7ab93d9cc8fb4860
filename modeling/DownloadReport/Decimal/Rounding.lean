/-! Rounding of a quotient of natural numbers to the nearest whole number or to a fixed number of
    decimal places. A quotient half-way between two candidates goes to the even one. -/

namespace DownloadReport.Decimal

/-- The whole number nearest to `num / den`; of two that are equally near, the even one. -/
def nearest (num den : Nat) : Nat :=
  let q := num / den
  let twice := 2 * (num % den)
  if twice < den ∨ (twice = den ∧ q % 2 = 0) then q else q + 1

/-- A number of `10 ^ -places`, written with a point before the last `places` digits. -/
def withPoint (places : Nat) (n : Nat) : List Char :=
  let digits := Nat.toDigits 10 n
  let padded := List.replicate (places + 1 - digits.length) '0' ++ digits
  let whole := padded.length - places
  if places = 0 then padded else padded.take whole ++ ['.'] ++ padded.drop whole

/-- The quotient `num / den` to a fixed number of decimal places. -/
def fixed (places num den : Nat) : List Char :=
  withPoint places (nearest (num * Nat.pow 10 places) den)

end DownloadReport.Decimal

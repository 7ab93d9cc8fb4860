/-! The exact value of a floating-point number of 64 bits: a whole number times a power of two. -/

namespace DownloadReport.Decimal

/-- What the 64 bits of a floating-point number say. -/
inductive Binary64 where
  | notANumber
  | infinite (negative : Bool)
  /-- The value `mantissa * 2 ^ exponent`, below zero if `negative`; zero keeps its sign. -/
  | finite (negative : Bool) (mantissa : Nat) (exponent : Int)
  deriving DecidableEq, Repr

/-- The first mantissa of 53 bits, which is `2 ^ 52`. -/
def leastFullMantissa : Nat := 4503599627370496

/-- The parts of a number: one bit of sign, eleven of exponent, fifty-two of mantissa. An exponent of
    all ones is kept for what is no finite number, one of all zeros for the numbers near zero. -/
def Binary64.ofFloat (x : Float) : Binary64 :=
  let bits := x.toBits.toNat
  let negative := decide (2048 ≤ bits / leastFullMantissa)
  let exponent : Nat := bits / leastFullMantissa % 2048
  let fraction : Nat := bits % leastFullMantissa
  if exponent = 2047 then
    if fraction = 0 then .infinite negative else .notANumber
  else if exponent = 0 then .finite negative fraction (-1074)
  else .finite negative (leastFullMantissa + fraction) ((exponent : Int) - 1075)

/-- The quotient of whole numbers that `mantissa * 2 ^ exponent` is. -/
def quotient (mantissa : Nat) (exponent : Int) : Nat × Nat :=
  (mantissa * Nat.pow 2 exponent.toNat, Nat.pow 2 (-exponent).toNat)

end DownloadReport.Decimal

import DownloadReport.Decimal.Binary64

/-! The shortest decimal text of a floating-point number: the fewest significant digits that are read
    back as the same number, and of the decimals with that many digits the nearest one.

    A number `m * 2 ^ q` is read back from every decimal between the midpoints to its two neighbours,
    the midpoints included if `m` is even. In units of `2 ^ (q - 2)` the number is `4 * m`, the upper
    midpoint `4 * m + 2`, and the lower one `4 * m - 2`, or `4 * m - 1` where the numbers below lie
    twice as dense. For each count of digits, the two decimals of that many digits around the number
    are tried. -/

namespace DownloadReport.Decimal

/-- A decimal `digits * 10 ^ exponent`. -/
structure Scientific where
  digits : Nat
  exponent : Int
  deriving DecidableEq, Repr

/-- The decimals that are read back as one number: those between `low` and `high` units of
    `num / den`, the bounds included if `closed`. -/
structure Interval where
  low : Nat
  high : Nat
  closed : Bool
  num : Nat
  den : Nat

/-- The interval of the number `mantissa * 2 ^ exponent`. -/
def Interval.around (mantissa : Nat) (exponent : Int) : Interval :=
  let dense := mantissa = leastFullMantissa ∧ -1074 < exponent
  { low := 4 * mantissa - (if dense then 1 else 2)
    high := 4 * mantissa + 2
    closed := mantissa % 2 == 0
    num := Nat.pow 2 (exponent - 2).toNat
    den := Nat.pow 2 (2 - exponent).toNat }

/-- Whether a decimal lies in the interval. -/
def Interval.contains (i : Interval) (d : Scientific) : Bool :=
  let value := d.digits * Nat.pow 10 d.exponent.toNat * i.den
  let unit := i.num * Nat.pow 10 (-d.exponent).toNat
  if i.closed then decide (i.low * unit ≤ value ∧ value ≤ i.high * unit)
  else decide (i.low * unit < value ∧ value < i.high * unit)

/-- The power of ten at or below the quotient `num / den`, for a quotient that is not zero. -/
def leadingPower (num den : Nat) : Int :=
  if den ≤ num then ((Nat.toDigits 10 (num / den)).length : Int) - 1
  else
    let k := ((Nat.toDigits 10 (den / num)).length : Int)
    if den ≤ num * Nat.pow 10 (k - 1).toNat then 1 - k else -k

/-- Among the two decimals with `count` digits around `num / den` whose leading power of ten is
    `leading`, the nearest one that lies in the interval. -/
def candidate? (i : Interval) (num den : Nat) (leading : Int) (count : Nat) : Option Scientific :=
  let exponent := leading + 1 - count
  let scaledNum := num * Nat.pow 10 (-exponent).toNat
  let scaledDen := den * Nat.pow 10 exponent.toNat
  let below : Scientific := ⟨scaledNum / scaledDen, exponent⟩
  let above : Scientific := ⟨below.digits + 1, exponent⟩
  let twice := 2 * (scaledNum % scaledDen)
  let belowFirst := twice < scaledDen ∨ (twice = scaledDen ∧ below.digits % 2 = 0)
  (if belowFirst then [below, above] else [above, below]).find? i.contains

/-- The shortest decimal of a number that is not zero; seventeen digits are always enough. -/
def shortest (mantissa : Nat) (exponent : Int) : Scientific :=
  let i := Interval.around mantissa exponent
  let (num, den) := quotient mantissa exponent
  let leading := leadingPower num den
  ((List.range 17).findSome? fun n => candidate? i num den leading (n + 1)).getD
    ⟨mantissa, exponent⟩

/-- How a decimal is laid out: which leading powers of ten are written without an exponent. -/
structure Layout where
  lowestPlain : Int
  highestPlain : Int

/-- The digits of a decimal laid out with a point, or with an exponent that carries its sign. A
    number without a fraction keeps one zero behind its point. -/
def Layout.write (l : Layout) (d : Scientific) : List Char :=
  let trimmed := ((Nat.toDigits 10 d.digits).reverse.dropWhile (· = '0')).reverse
  let leading := d.exponent + (Nat.toDigits 10 d.digits).length - 1
  if l.lowestPlain ≤ leading ∧ leading ≤ l.highestPlain then
    if leading < 0 then
      ['0', '.'] ++ List.replicate (-1 - leading).toNat '0' ++ trimmed
    else
      let whole := leading.toNat + 1
      let padded := trimmed ++ List.replicate (whole - trimmed.length) '0'
      let fraction := padded.drop whole
      padded.take whole ++ ['.'] ++ (if fraction.isEmpty then ['0'] else fraction)
  else
    trimmed.take 1 ++ (if trimmed.length ≤ 1 then [] else '.' :: trimmed.drop 1) ++
      ['e', if leading < 0 then '-' else '+'] ++ Nat.toDigits 10 leading.natAbs

/-- The shortest text of a finite number, with its sign. -/
def Layout.writeFinite (l : Layout) (negative : Bool) (mantissa : Nat) (exponent : Int) :
    List Char :=
  (if negative then ['-'] else []) ++
    if mantissa = 0 then ['0', '.', '0'] else l.write (shortest mantissa exponent)

end DownloadReport.Decimal

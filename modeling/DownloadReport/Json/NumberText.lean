import DownloadReport.Json.Fault
import DownloadReport.Json.Value

/-! Numbers as they are written, and what they denote.

    A number without a point and an exponent denotes an integer if 64 bits can hold it. Every other
    number denotes a floating-point number that is found in one step from a significand of 64 bits and
    a power of ten: digits are taken into the significand as long as it has room for them, those of the
    whole part that no longer fit count towards the power, and those behind the point are dropped. -/

namespace DownloadReport.Json

/-- Where a text that begins like a number stops being one. -/
inductive NumberFault where
  /-- The text ends. -/
  | cut
  /-- A digit is missing, or follows a leading zero. -/
  | malformed
  deriving DecidableEq, Repr

/-- A number as it is written. The digits before and behind the point and those of the exponent are
    kept as they stand; a number without a point has no digits behind it. -/
structure NumberText where
  negative : Bool := false
  whole : List Char := []
  fraction : List Char := []
  /-- Whether the exponent is below zero, and its digits. -/
  exponent : Option (Bool × List Char) := none
  fault : Option NumberFault := none
  deriving DecidableEq, Repr

/-! ### Finding a number in a text -/

/-- The fault of a text that goes on with `rest` where a digit is missing. -/
def missingDigit : List Char → NumberFault
  | [] => .cut
  | _ :: _ => .malformed

/-- Goes on behind one or more digits; a number that lacks them is at fault. -/
def NumberText.behindDigits (n : NumberText) (text : List Char)
    (go : List Char → List Char → NumberText × List Char) : NumberText × List Char :=
  let (digits, rest) := text.span Char.isDigit
  if digits.isEmpty then ({ n with fault := some (missingDigit rest) }, rest) else go digits rest

/-- Whether the digits of an exponent stand behind a minus sign, and the text behind the sign. -/
def exponentSign : List Char → Bool × List Char
  | '+' :: r => (false, r)
  | '-' :: r => (true, r)
  | r => (false, r)

/-- Finishes a number with its exponent, if there is one. -/
def NumberText.scanExponent (n : NumberText) (text : List Char) : NumberText × List Char :=
  match text with
  | c :: r =>
    if c = 'e' ∨ c = 'E' then
      n.behindDigits (exponentSign r).2 fun digits rest =>
        ({ n with exponent := some ((exponentSign r).1, digits) }, rest)
    else (n, text)
  | [] => (n, [])

/-- Goes on with a number behind its whole part. -/
def NumberText.scanFraction (n : NumberText) (text : List Char) : NumberText × List Char :=
  match text with
  | '.' :: r =>
    n.behindDigits r fun digits rest => { n with fraction := digits }.scanExponent rest
  | _ => n.scanExponent text

/-- Goes on with a number behind its sign. -/
def NumberText.scanWhole (n : NumberText) (text : List Char) : NumberText × List Char :=
  match text with
  | '0' :: r =>
    if r.head?.any Char.isDigit then ({ n with fault := some .malformed }, r)
    else { n with whole := ['0'] }.scanFraction r
  | _ => n.behindDigits text fun digits rest => { n with whole := digits }.scanFraction rest

/-- The number at the beginning of a text that starts with a minus sign or a digit, and what follows. -/
def scanNumber : List Char → NumberText × List Char
  | '-' :: r => { negative := true : NumberText }.scanWhole r
  | r => { negative := false : NumberText }.scanWhole r

/-! ### What a number denotes -/

/-- Takes digits into a significand of 64 bits; gives it and the digits that no longer fit. -/
def takeDigits (significand : Nat) : List Char → Nat × List Char
  | [] => (significand, [])
  | c :: r =>
    let grown := 10 * significand + (c.toNat - '0'.toNat)
    if grown < UInt64.size then takeDigits grown r else (significand, c :: r)

/-- The number `x * 10 ^ power`, by one multiplication or division; a power below -308 is reached in
    steps, of which three are enough to end at zero. -/
def scaleByTen (steps : Nat) (x : Float) (power : Int) : Except Fault Float :=
  if power.natAbs ≤ 308 then
    if 0 ≤ power then
      let y := x * Float.ofScientific 1 false power.natAbs
      if y.isInf then .error .numberOutOfRange else .ok y
    else .ok (x / Float.ofScientific 1 false power.natAbs)
  else if x == 0 then .ok x
  else if 0 ≤ power then .error .numberOutOfRange
  else
    match steps with
    | 0 => .ok x
    | steps + 1 => scaleByTen steps (x / Float.ofScientific 1 false 308) (power + 308)

/-- The floating-point number `significand * 10 ^ power`. -/
def floatOf (negative : Bool) (significand : Nat) (power : Int) : Except Fault Number :=
  (scaleByTen 3 (UInt64.ofNat significand).toFloat power).map fun x =>
    .float (if negative then -x else x)

/-- The number that a written significand without a point or an exponent denotes. Zero behind a minus
    sign is the floating-point zero with that sign. -/
def integerOf (negative : Bool) (significand : Nat) : Number :=
  if negative then
    if h : 0 < significand ∧ significand ≤ 9223372036854775808 then
      .integer (-(significand : Int)) (by omega)
    else .float (-(UInt64.ofNat significand).toFloat)
  else if h : significand < 18446744073709551616 then .integer significand (by omega)
  else .float (UInt64.ofNat significand).toFloat

/-- The greatest exponent that is counted; a greater one makes every number vanish or overflow. -/
def greatestExponent : Nat := 2147483647

/-- What a written number denotes. -/
def NumberText.value (n : NumberText) : Except Fault Number :=
  match n.fault with
  | some .cut => .error .endInValue
  | some .malformed => .error .badNumber
  | none =>
    let (start, beyond) := takeDigits 0 n.whole
    if n.fraction.isEmpty ∧ n.exponent.isNone ∧ beyond.isEmpty then .ok (integerOf n.negative start)
    else
      let (significand, dropped) := takeDigits start n.fraction
      let power : Int := beyond.length - (n.fraction.length - dropped.length : Nat)
      match n.exponent with
      | none => floatOf n.negative significand power
      | some (negative, digits) =>
        let size := Nat.ofDigitChars 10 digits 0
        if size ≤ greatestExponent then
          floatOf n.negative significand (if negative then power - size else power + size)
        else if significand = 0 ∨ negative then .ok (.float (if n.negative then -0.0 else 0.0))
        else .error .numberOutOfRange

/-- What is wrong with a written number that is passed over: its form, but not its size. -/
def NumberText.skim (n : NumberText) : Except Fault Unit :=
  if n.fault.isSome then .error .badNumber else .ok ()

end DownloadReport.Json

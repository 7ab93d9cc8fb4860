import DownloadReport.DecodeError
import DownloadReport.Decimal.Numeral
import DownloadReport.ExitCode
import DownloadReport.PieceMap
import DownloadReport.Instant

/-! The scalars of a report. The server sends every number and every flag as a string, and leaves out
    what does not apply. A scalar that is left out has its zero value; one that is there is read exactly
    or refused with the name of its field. -/

namespace DownloadReport.Scalar

/-- A number below `bound`: ASCII digits only, leading zeros allowed. -/
def below (bound : Nat) (field : String) : Option String → Except DecodeError Nat
  | none => .ok 0
  | some raw =>
    match Decimal.natural? raw.toList with
    | some n => if n < bound then .ok n else .error (.malformedNumber field raw)
    | none => .error (.malformedNumber field raw)

/-- A counter of 64 bits. -/
def counter (field : String) (raw : Option String) : Except DecodeError UInt64 :=
  (below UInt64.size field raw).map UInt64.ofNat

/-- An error code of 32 bits. -/
def exitCode (field : String) (raw : Option String) : Except DecodeError ExitCode :=
  (below UInt32.size field raw).map fun n => .ofNumber (UInt32.ofNat n)

/-- A flag. -/
def flag (field : String) : Option String → Except DecodeError Bool
  | none => .ok false
  | some raw =>
    if raw = "true" then .ok true
    else if raw = "false" then .ok false
    else .error (.typeMismatch field ("expected \"true\" or \"false\", got " ++ Text.quoted raw))

/-- What is said of a text that is no hexadecimal. -/
def hexReason (raw : String) : Hex.Error → String
  | .oddLength => "Odd number of digits in " ++ Text.quoted raw
  | .invalidByte byte position =>
    "Invalid character " ++ Text.quotedChar (Char.ofNat byte.toNat) ++ " at position " ++
      position.repr ++ " in " ++ Text.quoted raw

/-- A piece map in hexadecimal. -/
def pieceMap : Option String → Except DecodeError PieceMap
  | none => .ok {}
  | some raw => (PieceMap.ofHex raw).mapError fun e => .typeMismatch "bitfield" (hexReason raw e)

/-- What is said of a number of seconds that is no instant. -/
def outOfRange (seconds : Int) : String :=
  "timestamp " ++ String.ofList (Decimal.ofInteger seconds) ++ " is out of range"

/-- What is said of a text that is no number of seconds. -/
def notANumber (raw : String) : String :=
  "expected an integer timestamp, got " ++ Text.quoted raw

/-- An instant as a number of seconds of 64 bits, with or without a sign. -/
def instant (field raw : String) : Except DecodeError Instant :=
  match Decimal.integer? raw.toList with
  | some n =>
    if -9223372036854775808 ≤ n ∧ n < 9223372036854775808 then
      match Instant.ofSeconds? n with
      | some t => .ok t
      | none => .error (.typeMismatch field (outOfRange n))
    else .error (.typeMismatch field (notANumber raw))
  | none => .error (.typeMismatch field (notANumber raw))

/-! ### Writing -/

/-- A counter as a numeral. -/
def counterText (n : UInt64) : String := String.ofList (Decimal.ofNatural n.toNat)

def flagText (b : Bool) : String := if b then "true" else "false"

/-- A text that is left out when it is empty. -/
def unlessEmpty (s : String) : Option String := if s = "" then none else some s

end DownloadReport.Scalar

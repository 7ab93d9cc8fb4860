/-! Bytes written in hexadecimal, two digits a byte, the high half first. Writing uses lower case;
    reading takes either case, looks at the length first, and then at the bytes of the text from left
    to right. -/

namespace DownloadReport.Hex

/-- The value of a hexadecimal digit of either case. -/
def digit? (c : Char) : Option Nat :=
  if c.isDigit then some (c.toNat - '0'.toNat)
  else if 'a' ≤ c ∧ c ≤ 'f' then some (c.toNat - 'a'.toNat + 10)
  else if 'A' ≤ c ∧ c ≤ 'F' then some (c.toNat - 'A'.toNat + 10)
  else none

/-- The lower-case digit of a number below sixteen. -/
def digit (n : Nat) : Char := Nat.digitChar n

/-- The two digits of a byte. -/
def pair (byte : UInt8) : List Char := [digit (byte.toNat / 16), digit (byte.toNat % 16)]

/-- Bytes as text. -/
def encode (bytes : List UInt8) : String := String.ofList (bytes.flatMap pair)

/-- Why a text is not bytes in hexadecimal. -/
inductive Error where
  | oddLength
  /-- The first byte of the text that is no digit, and where it stands. -/
  | invalidByte (byte : UInt8) (position : Nat)
  deriving DecidableEq, Repr

/-- The bytes of a text in UTF-8. -/
def bytesOf (text : String) : List UInt8 := text.toList.flatMap String.utf8EncodeChar

/-- The value of a byte of text as a digit. -/
def byteDigit (byte : UInt8) (position : Nat) : Except Error Nat :=
  match digit? (Char.ofNat byte.toNat) with
  | some n => .ok n
  | none => .error (.invalidByte byte position)

/-- Reads digits in pairs from `position` on. -/
def decodePairs (position : Nat) : List UInt8 → Except Error (List UInt8)
  | [] => .ok []
  | [_] => .error .oddLength
  | high :: low :: rest => do
    let h ← byteDigit high position
    let l ← byteDigit low (position + 1)
    let bytes ← decodePairs (position + 2) rest
    return UInt8.ofNat (16 * h + l) :: bytes

/-- The bytes that a text denotes. -/
def decode (text : String) : Except Error (List UInt8) :=
  let bytes := bytesOf text
  if bytes.length % 2 = 1 then .error .oddLength else decodePairs 0 bytes

end DownloadReport.Hex

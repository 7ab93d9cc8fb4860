import DownloadReport.Hex
import DownloadReport.Json.Fault

/-! Strings as they are written, and the texts they denote.

    A string is a row of characters, each standing for itself or behind a backslash, and of code units
    of sixteen bits in four hexadecimal digits. Two code units that are a leading and a trailing
    surrogate denote one character between them; a surrogate without its partner denotes none. -/

namespace DownloadReport.Json

/-- One piece of a written string. -/
inductive StringPiece where
  | char (c : Char)
  | unit (u : Nat)
  deriving DecidableEq, Repr

/-- What ends a written string: its closing mark, or the place where it stops being one. -/
inductive StringStop where
  | closed
  | ended
  | control
  | badEscape
  | badHex
  deriving DecidableEq, Repr

/-- A string as it is written. -/
structure StringText where
  pieces : List StringPiece
  stop : StringStop
  deriving DecidableEq, Repr

/-! ### Finding a string in a text -/

/-- The character that a letter behind a backslash stands for. -/
def escaped? : Char → Option Char
  | '"' => some '"'
  | '\\' => some '\\'
  | '/' => some '/'
  | 'b' => some '\x08'
  | 'f' => some '\x0c'
  | 'n' => some '\n'
  | 'r' => some '\r'
  | 't' => some '\t'
  | _ => none

/-- The code unit that four hexadecimal digits denote. -/
def codeUnit? (a b c d : Char) : Option Nat := do
  let a ← Hex.digit? a
  let b ← Hex.digit? b
  let c ← Hex.digit? c
  let d ← Hex.digit? d
  return ((a * 16 + b) * 16 + c) * 16 + d

/-- A piece before a string that was found behind it. -/
def pushPiece (p : StringPiece) (found : StringText × List Char) : StringText × List Char :=
  (⟨p :: found.1.pieces, found.1.stop⟩, found.2)

/-- The string behind an opening quotation mark, and what follows it. A code unit for which fewer than
    four bytes are left is cut short by the end of the text; otherwise its digits are at fault. -/
def scanString : List Char → StringText × List Char
  | [] => (⟨[], .ended⟩, [])
  | '"' :: r => (⟨[], .closed⟩, r)
  | '\\' :: [] => (⟨[], .ended⟩, [])
  | '\\' :: 'u' :: a :: b :: c :: d :: r =>
    match codeUnit? a b c d with
    | some u => pushPiece (.unit u) (scanString r)
    | none => (⟨[], .badHex⟩, r)
  | '\\' :: 'u' :: r => (⟨[], if (String.ofList r).utf8ByteSize < 4 then .ended else .badHex⟩, r)
  | '\\' :: c :: r =>
    match escaped? c with
    | some e => pushPiece (.char e) (scanString r)
    | none => (⟨[], .badEscape⟩, r)
  | c :: r => if c < ' ' then (⟨[], .control⟩, r) else pushPiece (.char c) (scanString r)

/-! ### What a string denotes -/

/-- Whether a code unit is the first half of a character beyond sixteen bits. -/
def isLeadingSurrogate (u : Nat) : Bool := 0xD800 ≤ u && u < 0xDC00

/-- Whether a code unit is the second half of a character beyond sixteen bits. -/
def isTrailingSurrogate (u : Nat) : Bool := 0xDC00 ≤ u && u < 0xE000

/-- The character of a leading and a trailing surrogate. -/
def joinSurrogates (u v : Nat) : Char :=
  Char.ofNat ((u - 0xD800) * 0x400 + (v - 0xDC00) + 0x10000)

/-- The fault of a string that does not end with its closing mark. -/
def StringStop.fault? : StringStop → Option Fault
  | .closed => none
  | .ended => some .endInString
  | .control => some .controlCharacter
  | .badEscape => some .badEscape
  | .badHex => some .badEscape

/-- The fault of a string that stops where a trailing surrogate should stand. -/
def StringStop.surrogateFault : StringStop → Fault
  | .ended => .endInString
  | .badHex => .badEscape
  | .closed | .control | .badEscape => .unfinishedSurrogate

/-- The characters that the pieces of a string denote; the first fault from the left counts. -/
def decodePieces (stop : StringStop) : List StringPiece → Except Fault (List Char)
  | [] =>
    match stop.fault? with
    | none => .ok []
    | some fault => .error fault
  | .char c :: r => (decodePieces stop r).map (c :: ·)
  | .unit u :: r =>
    if isTrailingSurrogate u then .error .loneSurrogate
    else if isLeadingSurrogate u then
      match r with
      | .unit v :: r =>
        if isTrailingSurrogate v then (decodePieces stop r).map (joinSurrogates u v :: ·)
        else .error .loneSurrogate
      | .char _ :: _ => .error .unfinishedSurrogate
      | [] => .error stop.surrogateFault
    else (decodePieces stop r).map (Char.ofNat u :: ·)

/-- The text that a written string denotes. -/
def StringText.decode (t : StringText) : Except Fault String :=
  (decodePieces t.stop t.pieces).map String.ofList

/-- What is wrong with a written string that is passed over: its form, but not its surrogates. -/
def StringText.skim (t : StringText) : Except Fault Unit :=
  match t.stop.fault? with
  | none => .ok ()
  | some fault => .error fault

end DownloadReport.Json

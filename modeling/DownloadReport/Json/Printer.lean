import DownloadReport.Json.ReadError

/-! Writing values as text: on one line without blanks, or over several lines, each level indented by
    two blanks. Members are written in the order in which the value holds them. In strings, the
    quotation mark, the backslash and the controls below the blank are escaped, and nothing else. -/

namespace DownloadReport.Json

/-- How a character stands in a written string. -/
def writeChar (c : Char) : List Char :=
  if c = '"' then ['\\', '"']
  else if c = '\\' then ['\\', '\\']
  else if c = '\x08' then ['\\', 'b']
  else if c = '\x0c' then ['\\', 'f']
  else if c = '\n' then ['\\', 'n']
  else if c = '\r' then ['\\', 'r']
  else if c = '\t' then ['\\', 't']
  else if c < ' ' then ['\\', 'u', '0', '0', Hex.digit (c.toNat / 16), Hex.digit (c.toNat % 16)]
  else [c]

/-- A string between its quotation marks. -/
def writeString (s : String) : List Char :=
  ['"'] ++ s.toList.flatMap writeChar ++ ['"']

/-- How the parts of lists and objects are set: what stands before an item at a depth, before the
    closing bracket at a depth, and behind a colon. -/
structure Style where
  beforeItem : Nat → List Char
  beforeEnd : Nat → List Char
  behindColon : List Char

/-- Everything on one line without blanks. -/
def Style.compact : Style := ⟨fun _ => [], fun _ => [], []⟩

/-- A new line, and two blanks for each level. -/
def newLine (depth : Nat) : List Char := '\n' :: List.replicate (2 * depth) ' '

/-- Each item on a line of its own. -/
def Style.indented : Style := ⟨fun depth => newLine (depth + 1), newLine, [' ']⟩

mutual
/-- A value at a depth. Lists and objects without items are written as their two brackets. -/
def Value.write (style : Style) : Value → Nat → List Char
  | .null, _ => ['n', 'u', 'l', 'l']
  | .bool true, _ => ['t', 'r', 'u', 'e']
  | .bool false, _ => ['f', 'a', 'l', 's', 'e']
  | .number n, _ => n.text.toList
  | .string s, _ => writeString s
  | .array [], _ => ['[', ']']
  | .array (v :: vs), depth =>
    ['['] ++ style.beforeItem depth ++ v.write style (depth + 1) ++ writeItems style vs depth
  | .object [], _ => ['\x7b', '\x7d']
  | .object (m :: ms), depth =>
    ['\x7b'] ++ style.beforeItem depth ++ writeMember style m depth ++ writeMembers style ms depth
/-- The further items of a list and its closing bracket. -/
def writeItems (style : Style) : List Value → Nat → List Char
  | [], depth => style.beforeEnd depth ++ [']']
  | v :: vs, depth =>
    [','] ++ style.beforeItem depth ++ v.write style (depth + 1) ++ writeItems style vs depth
/-- The further members of an object and its closing bracket. -/
def writeMembers (style : Style) : List (String × Value) → Nat → List Char
  | [], depth => style.beforeEnd depth ++ ['\x7d']
  | m :: ms, depth =>
    [','] ++ style.beforeItem depth ++ writeMember style m depth ++ writeMembers style ms depth
/-- A member with its key. -/
def writeMember (style : Style) : String × Value → Nat → List Char
  | (key, v), depth => writeString key ++ [':'] ++ style.behindColon ++ v.write style (depth + 1)
end

/-- A value on one line. -/
def Value.compact (v : Value) : String := String.ofList (v.write .compact 0)

/-- A value over several lines. -/
def Value.indented (v : Value) : String := String.ofList (v.write .indented 0)

end DownloadReport.Json

/-! What keeps a text from being read as JSON. Faults are causes; their wording stands in one place. -/

namespace DownloadReport.Json

/-- Why a text is not JSON, or not JSON within the limits of numbers and nesting. -/
inductive Fault where
  /-- The text ends where a value should stand, or inside a number or a word. -/
  | endInValue
  | endInList
  | endInObject
  | endInString
  /-- No value starts with this character. -/
  | noValue
  /-- A word that begins like `null`, `true` or `false` and goes on otherwise. -/
  | badWord
  | noColon
  | noListEnd
  | noObjectEnd
  | trailingComma
  | keyNotString
  /-- Something stands behind the end of a value. -/
  | trailingCharacters
  | badNumber
  | numberOutOfRange
  | badEscape
  | controlCharacter
  /-- A surrogate without its partner. -/
  | loneSurrogate
  /-- A leading surrogate that no further code unit follows. -/
  | unfinishedSurrogate
  | tooDeep
  deriving DecidableEq, Repr

/-- Whether the fault is that the text ends too early. -/
def Fault.isEnd : Fault → Bool
  | .endInValue | .endInList | .endInObject | .endInString => true
  | _ => false

def Fault.message : Fault → String
  | .endInValue => "EOF while parsing a value"
  | .endInList => "EOF while parsing a list"
  | .endInObject => "EOF while parsing an object"
  | .endInString => "EOF while parsing a string"
  | .noValue => "expected value"
  | .badWord => "expected ident"
  | .noColon => "expected `:`"
  | .noListEnd => "expected `,` or `]`"
  | .noObjectEnd => "expected `,` or `\x7d`"
  | .trailingComma => "trailing comma"
  | .keyNotString => "key must be a string"
  | .trailingCharacters => "trailing characters"
  | .badNumber => "invalid number"
  | .numberOutOfRange => "number out of range"
  | .badEscape => "invalid escape"
  | .controlCharacter => "control character (\\u0000-\\u001F) found while parsing a string"
  | .loneSurrogate => "lone leading surrogate in hex escape"
  | .unfinishedSurrogate => "unexpected end of hex escape"
  | .tooDeep => "recursion limit exceeded"

end DownloadReport.Json

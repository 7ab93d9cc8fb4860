import DownloadReport.Json.NumberText
import DownloadReport.Json.StringText

/-! The outline of a text: what stands in it, value by value, as far as it is JSON and with the places
    where it is not. An outline judges nothing. Different readers of one text stop at different faults,
    because some of them pass over what others read; each is a walk over the outline that ends at the
    first fault it meets, so what an outline holds behind a fault does not count. Blanks leave no trace
    in an outline. -/

namespace DownloadReport.Json

/-- What ends a list: its bracket, or the place where it stops being one. -/
inductive ListStop where
  | closed
  | ended
  /-- Neither a comma nor the bracket follows an item. -/
  | misplaced
  /-- The bracket follows a comma. -/
  | dangling
  deriving DecidableEq, Repr

/-- What ends an object: its bracket, or the place where it stops being one. -/
inductive ObjectStop where
  | closed
  | ended
  /-- Neither a comma nor the bracket follows a member. -/
  | misplaced
  /-- No string stands where a key should. -/
  | keyless
  /-- The bracket follows a comma. -/
  | dangling
  /-- The text ends behind a comma. -/
  | danglingEnd
  deriving DecidableEq, Repr

mutual
/-- What stands at one place of a text where a value is looked for. -/
inductive Node where
  /-- The text ends. -/
  | missing
  /-- A character that begins no value. -/
  | stray
  | null
  | bool (b : Bool)
  /-- A word that begins well and goes on wrongly, or that the text cuts short. -/
  | brokenWord (cut : Bool)
  | number (n : NumberText)
  | string (s : StringText)
  | list (items : Items)
  | object (members : Members)
/-- The items of a list and what ends it. -/
inductive Items where
  | stop (s : ListStop)
  | item (n : Node) (rest : Items)
/-- The members of an object and what ends it. -/
inductive Members where
  | stop (s : ObjectStop)
  /-- A key that no colon follows; the text may end there. -/
  | bareKey (key : StringText) (cut : Bool)
  | member (key : StringText) (value : Node) (rest : Members)
end

/-- Blanks between the parts of a JSON text. -/
def isBlank (c : Char) : Bool := c = ' ' || c = '\t' || c = '\n' || c = '\r'

def skipBlank (text : List Char) : List Char := text.dropWhile isBlank

/-- Follows a word letter by letter: nothing is wrong, the text ends within it (`some true`), or it
    goes on otherwise (`some false`). Also gives what follows. -/
def scanWord : List Char → List Char → Option Bool × List Char
  | [], text => (none, text)
  | _ :: _, [] => (some true, [])
  | w :: word, c :: text => if w = c then scanWord word text else (some false, c :: text)

/-- The node of a word of which the first letter was found. -/
def wordNode (node : Node) (letters : String) (text : List Char) : Node × List Char :=
  match scanWord letters.toList text with
  | (none, rest) => (node, rest)
  | (some cut, rest) => (.brokenWord cut, rest)

mutual
/-- The node at the beginning of a text, and what follows it. `fuel` bounds how many values, items and
    members are followed; twice the length of the text is enough. -/
def scanNode : Nat → List Char → Node × List Char
  | 0, text => (.missing, text)
  | fuel + 1, text =>
    match skipBlank text with
    | [] => (.missing, [])
    | 'n' :: r => wordNode .null "ull" r
    | 't' :: r => wordNode (.bool true) "rue" r
    | 'f' :: r => wordNode (.bool false) "alse" r
    | '"' :: r =>
      let (s, rest) := scanString r
      (.string s, rest)
    | '[' :: r =>
      match skipBlank r with
      | [] => (.list (.stop .ended), [])
      | ']' :: rest => (.list (.stop .closed), rest)
      | r =>
        let (items, rest) := scanItems fuel r
        (.list items, rest)
    | '\x7b' :: r =>
      match skipBlank r with
      | [] => (.object (.stop .ended), [])
      | '\x7d' :: rest => (.object (.stop .closed), rest)
      | '"' :: r =>
        let (members, rest) := scanMembers fuel r
        (.object members, rest)
      | r => (.object (.stop .keyless), r)
    | c :: r =>
      if c = '-' ∨ c.isDigit then
        let (n, rest) := scanNumber (c :: r)
        (.number n, rest)
      else (.stray, c :: r)
/-- The items of a list from the place where one stands. -/
def scanItems : Nat → List Char → Items × List Char
  | 0, text => (.stop .ended, text)
  | fuel + 1, text =>
    let (n, rest) := scanNode fuel text
    match skipBlank rest with
    | [] => (.item n (.stop .ended), [])
    | ']' :: rest => (.item n (.stop .closed), rest)
    | ',' :: r =>
      match skipBlank r with
      | ']' :: rest => (.item n (.stop .dangling), rest)
      | r =>
        let (items, rest) := scanItems fuel r
        (.item n items, rest)
    | rest => (.item n (.stop .misplaced), rest)
/-- The members of an object from behind the quotation mark that opens a key. -/
def scanMembers : Nat → List Char → Members × List Char
  | 0, text => (.stop .ended, text)
  | fuel + 1, text =>
    let (key, rest) := scanString text
    match skipBlank rest with
    | [] => (.bareKey key true, [])
    | ':' :: r =>
      let (n, rest) := scanNode fuel r
      match skipBlank rest with
      | [] => (.member key n (.stop .ended), [])
      | '\x7d' :: rest => (.member key n (.stop .closed), rest)
      | ',' :: r =>
        match skipBlank r with
        | [] => (.member key n (.stop .danglingEnd), [])
        | '\x7d' :: rest => (.member key n (.stop .dangling), rest)
        | '"' :: r =>
          let (members, rest) := scanMembers fuel r
          (.member key n members, rest)
        | r => (.member key n (.stop .keyless), r)
      | rest => (.member key n (.stop .misplaced), rest)
    | rest => (.bareKey key false, rest)
end

/-- The outline of a whole text: the value at its beginning, and whether anything but blanks follows. -/
structure Outline where
  root : Node
  surplus : Bool

/-- The outline of a text. -/
def Outline.of (text : String) : Outline :=
  let cs := text.toList
  let (root, rest) := scanNode (2 * cs.length + 2) cs
  ⟨root, !(skipBlank rest).isEmpty⟩

end DownloadReport.Json

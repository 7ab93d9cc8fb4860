import DownloadReport.Json.Outline

/-! Two walks over an outline. Reading makes a value of it and is strict: strings denote texts, numbers
    have a size that can be held, and lists and objects nest to a limited depth. Skimming passes over a
    value that nobody wants and looks at its form only. Both end at the first fault in the order of the
    text. -/

namespace DownloadReport.Json

/-- The fault of a list that was read up to where it stops. -/
def ListStop.fault? : ListStop → Option Fault
  | .closed => none
  | .ended => some .endInList
  | .misplaced => some .noListEnd
  | .dangling => some .trailingComma

/-- The fault of an object that was read up to where it stops. -/
def ObjectStop.fault? : ObjectStop → Option Fault
  | .closed => none
  | .ended => some .endInObject
  | .misplaced => some .noObjectEnd
  | .keyless => some .keyNotString
  | .dangling => some .trailingComma
  | .danglingEnd => some .endInValue

/-- The fault of a list that was passed over: behind a comma it lacks a value. -/
def ListStop.skimFault? : ListStop → Option Fault
  | .dangling => some .noValue
  | s => s.fault?

/-- The fault of an object that was passed over: behind a comma it lacks a key. -/
def ObjectStop.skimFault? : ObjectStop → Option Fault
  | .dangling => some .keyNotString
  | .danglingEnd => some .endInObject
  | s => s.fault?

/-- Fails with a fault, if there is one. -/
def failWith : Option Fault → Except Fault Unit
  | none => .ok ()
  | some fault => .error fault

/-- The fault of a broken word. -/
def wordFault (cut : Bool) : Fault := if cut then .endInValue else .badWord

/-- The fault of a key that no colon follows. -/
def colonFault (cut : Bool) : Fault := if cut then .endInObject else .noColon

/-- How many lists and objects may be open at once. -/
def deepest : Nat := 127

mutual
/-- The value of a node, where `room` more lists and objects may be opened. -/
def Node.value : Node → Nat → Except Fault Value
  | .missing, _ => .error .endInValue
  | .stray, _ => .error .noValue
  | .null, _ => .ok .null
  | .bool b, _ => .ok (.bool b)
  | .brokenWord cut, _ => .error (wordFault cut)
  | .number n, _ => n.value.map .number
  | .string s, _ => s.decode.map .string
  | .list _, 0 => .error .tooDeep
  | .list items, room + 1 => (items.values room).map .array
  | .object _, 0 => .error .tooDeep
  | .object members, room + 1 => (members.values room).map fun ms => .object (sortMembers ms)
/-- The values of the items of a list. -/
def Items.values : Items → Nat → Except Fault (List Value)
  | .stop s, _ => do
    failWith s.fault?
    return []
  | .item n rest, room => do
    let v ← n.value room
    let vs ← rest.values room
    return v :: vs
/-- The members of an object with their values, in the order of the text. -/
def Members.values : Members → Nat → Except Fault (List (String × Value))
  | .stop s, _ => do
    failWith s.fault?
    return []
  | .bareKey key cut, _ => do
    let _ ← key.decode
    .error (colonFault cut)
  | .member key n rest, room => do
    let k ← key.decode
    let v ← n.value room
    let vs ← rest.values room
    return (k, v) :: vs
end

mutual
/-- What is wrong with the form of a node that is passed over. -/
def Node.skim : Node → Except Fault Unit
  | .missing => .error .endInValue
  | .stray => .error .noValue
  | .null | .bool _ => .ok ()
  | .brokenWord cut => .error (wordFault cut)
  | .number n => n.skim
  | .string s => s.skim
  | .list items => items.skim
  | .object members => members.skim
def Items.skim : Items → Except Fault Unit
  | .stop s => failWith s.skimFault?
  | .item n rest => do
    n.skim
    rest.skim
def Members.skim : Members → Except Fault Unit
  | .stop s => failWith s.skimFault?
  | .bareKey key cut => do
    key.skim
    .error (colonFault cut)
  | .member key n rest => do
    key.skim
    n.skim
    rest.skim
end

/-- Nothing but blanks may follow the value of a text. -/
def Outline.checkEnd (o : Outline) : Except Fault Unit :=
  if o.surplus then .error .trailingCharacters else .ok ()

/-- The value that a text denotes. -/
def Value.parse (text : String) : Except Fault Value := do
  let o := Outline.of text
  let v ← o.root.value deepest
  o.checkEnd
  return v

end DownloadReport.Json

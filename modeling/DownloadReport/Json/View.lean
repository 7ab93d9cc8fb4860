import DownloadReport.Json.Reading

/-! What a reader of records sees at one place: the kind of value that stands there, opened by one
    level. There are two ways to it. A place in the outline of a text is seen as the text goes on, with
    the faults that it meets on the way; a value has no faults and its members stand in the order of
    their keys. -/

namespace DownloadReport.Json

/-- The items of a list one by one, up to its end or to a fault. -/
inductive Elements (σ : Type) where
  | done
  | fault (f : Fault)
  | next (head : σ) (tail : Elements σ)

/-- The members of an object one by one, up to its end or to a fault. A key may lack its value. -/
inductive Entries (σ : Type) where
  | done
  | fault (f : Fault)
  | entry (key : String) (value : Except Fault σ) (rest : Entries σ)

/-- A value, opened by one level; `σ` are the places within it. -/
inductive View (σ : Type) where
  | null
  | bool (b : Bool)
  | number (n : Number)
  | string (s : String)
  | list (elements : Elements σ)
  | object (entries : Entries σ)

/-- How many items are left. -/
def Elements.count {σ : Type} : Elements σ → Nat
  | .done | .fault _ => 0
  | .next _ tail => tail.count + 1

/-- Why a record that is written as a list has too many items: in a text the list should have ended, of
    a value the number of items is known. -/
inductive Surplus where
  | text
  | items (count : Nat)

/-- The places from which records are read. -/
class Viewable (σ : Type) where
  /-- What stands there. -/
  view : σ → Except Fault (View σ)
  /-- All of it as a value. -/
  value : σ → Except Fault Value
  /-- Passes over it. -/
  skim : σ → Except Fault Unit
  /-- What is said of a list of so many items when it has too many. -/
  surplus : Nat → Surplus

/-! ### Places in a text -/

/-- A place in the outline of a text, where `room` more lists and objects may be opened. -/
structure Place where
  node : Node
  room : Nat

/-- Continues with `fault`, or with the regular end. -/
def Elements.ofStop {σ : Type} (s : ListStop) : Elements σ :=
  match s.fault? with
  | none => .done
  | some f => .fault f

def Items.elements (room : Nat) : Items → Elements Place
  | .stop s => .ofStop s
  | .item n rest => .next ⟨n, room⟩ (rest.elements room)

def Entries.ofStop {σ : Type} (s : ObjectStop) : Entries σ :=
  match s.fault? with
  | none => .done
  | some f => .fault f

/-- A member with its key decoded, or the fault of the key. -/
def Entries.ofKey {σ : Type} (key : StringText) (value : Except Fault σ) (rest : Entries σ) :
    Entries σ :=
  match key.decode with
  | .ok k => .entry k value rest
  | .error f => .fault f

def Members.entries (room : Nat) : Members → Entries Place
  | .stop s => .ofStop s
  | .bareKey key cut => .ofKey key (.error (colonFault cut)) .done
  | .member key n rest => .ofKey key (.ok ⟨n, room⟩) (rest.entries room)

/-- What stands at a place of a text. A list or object that there is no room for is seen as such, but
    cannot be entered. -/
def Place.view (p : Place) : Except Fault (View Place) :=
  match p.node with
  | .missing => .error .endInValue
  | .stray => .error .noValue
  | .null => .ok .null
  | .bool b => .ok (.bool b)
  | .brokenWord cut => .error (wordFault cut)
  | .number n => n.value.map .number
  | .string s => s.decode.map .string
  | .list items =>
    match p.room with
    | 0 => .ok (.list (.fault .tooDeep))
    | room + 1 => .ok (.list (items.elements room))
  | .object members =>
    match p.room with
    | 0 => .ok (.object (.fault .tooDeep))
    | room + 1 => .ok (.object (members.entries room))

instance : Viewable Place where
  view := Place.view
  value p := p.node.value p.room
  skim p := p.node.skim
  surplus _ := .text

/-! ### Values -/

/-- The items of a list of values. -/
def Elements.ofList {σ : Type} : List σ → Elements σ
  | [] => .done
  | x :: xs => .next x (.ofList xs)

/-- The members of an object value. -/
def Entries.ofList {σ : Type} : List (String × σ) → Entries σ
  | [] => .done
  | (k, x) :: rest => .entry k (.ok x) (.ofList rest)

/-- What a value is. -/
def Value.view : Value → View Value
  | .null => .null
  | .bool b => .bool b
  | .number n => .number n
  | .string s => .string s
  | .array items => .list (.ofList items)
  | .object members => .object (.ofList members)

instance : Viewable Value where
  view v := .ok v.view
  value := .ok
  skim _ := .ok ()
  surplus := .items

end DownloadReport.Json

import DownloadReport.Json.ReadError

/-! Shapes: what may stand at a place of a document, and what is made of it. A shape is data, so one
    description serves both ways of reading: from a text, where the first problem in the order of the
    text counts, and from a value.

    A record is written as an object, or as the list of its fields in their order. The members of an
    object may come in any order and unknown ones are passed over; each field has its own slot, which
    is filled once at most. -/

namespace DownloadReport.Json

mutual
/-- What may stand at a place, to be read as an `α`. -/
inductive Shape : Type → Type 1 where
  | string : Shape String
  /-- An integer of 64 bits with a sign. -/
  | signed : Shape Int64
  | anything : Shape Value
  /-- A value or `null`. -/
  | nullable {α : Type} (s : Shape α) : Shape (Option α)
  | list {α : Type} (s : Shape α) : Shape (List α)
  | record {α : Type} (name : String) (fields : Fields α) : Shape α
  /-- A value in one of several forms, told apart when it has been read. -/
  | forms {α : Type} (name : String) (pick : Value → Option α) : Shape α
  /-- A value that is made of what was read, or turned down for a reason. -/
  | refine {α β : Type} (s : Shape α) (make : α → Except String β) : Shape β
/-- The fields of a record `α` in their order. The record is built from its fields one by one, the last
    of which stands outermost. -/
inductive Fields : Type → Type 1 where
  | build {α : Type} (a : α) : Fields α
  /-- One more field; `absent` is its value when the record lacks it, if it may. -/
  | field {α β : Type} (before : Fields (β → α)) (key : String) (s : Shape β) (absent : Option β) :
      Fields α
end

/-- A field that may be absent or `null`. -/
def Fields.optional {α β : Type} (before : Fields (Option β → α)) (key : String) (s : Shape β) :
    Fields α :=
  .field before key (.nullable s) (some none)

/-- A field that is a text, and empty when it is absent. -/
def Fields.text {α : Type} (before : Fields (String → α)) (key : String) : Fields α :=
  .field before key .string (some "")

/-- How many fields a record has. -/
def Fields.count : {α : Type} → Fields α → Nat
  | _, .build _ => 0
  | _, .field before _ _ _ => before.count + 1

/-- One slot per field. -/
def Fields.Slots : {α : Type} → Fields α → Type
  | _, .build _ => Unit
  | _, @Fields.field _ β before _ _ _ => before.Slots × Option β

/-- All slots empty. -/
def Fields.fresh : {α : Type} → (f : Fields α) → f.Slots
  | _, .build _ => ()
  | _, .field before _ _ _ => (before.fresh, none)

/-- The record of filled slots; of the fields that have to be there and are not, the first counts. -/
def Fields.finish : {α : Type} → (f : Fields α) → f.Slots → Except ReadError α
  | _, .build a, _ => .ok a
  | _, .field before key _ absent, slots => do
    let (earlier, slot) : before.Slots × Option _ := slots
    let make ← before.finish earlier
    match slot.or absent with
    | some b => .ok (make b)
    | none => .error (.missingField key)

/-- Carries a fault of the text over to the reading of a record. -/
def liftFault {α : Type} : Except Fault α → Except ReadError α
  | .ok a => .ok a
  | .error f => .error (.fault f)

section Reading

variable {σ : Type} [Viewable σ]

/-- Reads the items of a list one after another. -/
def readElements {α : Type} (read : σ → Except ReadError α) :
    Elements σ → Except ReadError (List α)
  | .done => .ok []
  | .fault f => .error (.fault f)
  | .next x rest => do
    let a ← read x
    let as ← readElements read rest
    return a :: as

/-- Reads the members of an object one after another. `put` fills the slot of a key; a key without a
    slot is passed over. -/
def readEntries {τ : Type} (put : String → Except Fault σ → τ → Option (Except ReadError τ)) :
    Entries σ → τ → Except ReadError τ
  | .done, slots => .ok slots
  | .fault f, _ => .error (.fault f)
  | .entry key x rest, slots =>
    match put key x slots with
    | some filled => do
      let slots ← filled
      readEntries put rest slots
    | none => do
      let y ← liftFault x
      liftFault (Viewable.skim y)
      readEntries put rest slots

/-- What is left of a list when all fields of a record have been read: nothing may be. -/
def checkSurplus (fields : Nat) : Elements σ → Except ReadError Unit
  | .done => .ok ()
  | .fault .noListEnd => .error (.fault .trailingCharacters)
  | .fault f => .error (.fault f)
  | .next _ tail =>
    match Viewable.surplus σ (fields + 1 + tail.count) with
    | .text => .error (.fault .trailingCharacters)
    | .items count => .error (.tooLong count)

/-- An integer of 64 bits with a sign. -/
def readSigned (v : View σ) : Except ReadError Int64 :=
  match v with
  | .number (.integer n _) =>
    if n < 9223372036854775808 then .ok (Int64.ofInt n) else .error (.unsigned n)
  | v => .error (.wrongKind v.found .signed)

mutual
/-- Reads what stands at a place. -/
def Shape.read : {α : Type} → Shape α → σ → Except ReadError α
  | _, .string, x => do
    match ← liftFault (Viewable.view x) with
    | .string s => .ok s
    | v => .error (.wrongKind v.found .string)
  | _, .signed, x => do readSigned (← liftFault (Viewable.view x))
  | _, .anything, x => liftFault (Viewable.value x)
  | _, .nullable s, x => do
    match ← liftFault (Viewable.view x) with
    | .null => .ok none
    | _ => (s.read x).map some
  | _, .list s, x => do
    match ← liftFault (Viewable.view x) with
    | .list elements => readElements (fun y => s.read y) elements
    | v => .error (.wrongKind v.found .list)
  | _, .record name fields, x => do
    match ← liftFault (Viewable.view x) with
    | .list elements => do
      let (a, rest) ← fields.readList name fields.count elements
      checkSurplus fields.count rest
      return a
    | .object entries => do
      let slots ← readEntries (fun key y slots => fields.put key y slots) entries fields.fresh
      fields.finish slots
    | v => .error (.wrongKind v.found (.record name))
  | _, .forms name pick, x => do
    match pick (← liftFault (Viewable.value x)) with
    | some a => .ok a
    | none => .error (.noForm name)
  | _, .refine s make, x => do
    match make (← s.read x) with
    | .ok b => .ok b
    | .error reason => .error (.refused reason)
/-- Fills the slot of a key with what stands at a place; `none` if no field has the key. That a key
    comes twice is noticed before its second value is looked at. -/
def Fields.put : {α : Type} → (f : Fields α) → String → Except Fault σ → f.Slots →
    Option (Except ReadError f.Slots)
  | _, .build _, _, _, _ => none
  | _, .field before k s _, key, x, slots =>
    let (earlier, slot) : before.Slots × Option _ := slots
    if key = k then
      some <| match slot with
        | some _ => .error (.duplicateField k)
        | none => do
          let y ← liftFault x
          let b ← s.read y
          return (earlier, some b)
    else (before.put key x earlier).map fun filled => filled.map fun earlier => (earlier, slot)
/-- Reads the fields of a record of `total` fields from a list, and gives what is left of it. -/
def Fields.readList : {α : Type} → Fields α → String → Nat → Elements σ →
    Except ReadError (α × Elements σ)
  | _, .build a, _, _, elements => .ok (a, elements)
  | _, .field before _ s absent, name, total, elements => do
    let (make, rest) ← before.readList name total elements
    match rest with
    | .next x tail => do
      let b ← s.read x
      return (make b, tail)
    | .fault f => .error (.fault f)
    | .done =>
      match absent with
      | some b => .ok (make b, .done)
      | none => .error (.tooShort before.count name total)
end

end Reading

/-- Reads a whole text. -/
def Shape.readText {α : Type} (s : Shape α) (text : String) : Except ReadError α := do
  let o := Outline.of text
  let a ← s.read (⟨o.root, deepest⟩ : Place)
  liftFault o.checkEnd
  return a

/-- Reads a value. -/
def Shape.readValue {α : Type} (s : Shape α) (v : Value) : Except ReadError α := s.read v

end DownloadReport.Json

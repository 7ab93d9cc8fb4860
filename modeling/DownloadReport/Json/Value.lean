/-! JSON values. A value that was read from text has its objects in the order of their keys, each key
    once; a value that is to be written may have its members in any order. -/

namespace DownloadReport.Json

/-- A number: an integer that fits into 64 bits, with or without sign, or a floating-point number. -/
inductive Number where
  | integer (n : Int) (fits : -9223372036854775808 ≤ n ∧ n < 18446744073709551616)
  | float (x : Float)

inductive Value where
  | null
  | bool (b : Bool)
  | number (n : Number)
  | string (s : String)
  | array (items : List Value)
  | object (members : List (String × Value))

instance : Inhabited Value := ⟨.null⟩

/-- Puts a member at its place in the order of keys; a member with the same key gives way. -/
def putMember (key : String) (value : Value) : List (String × Value) → List (String × Value)
  | [] => [(key, value)]
  | (k, v) :: rest =>
    if key = k then (key, value) :: rest
    else if key < k then (key, value) :: (k, v) :: rest
    else (k, v) :: putMember key value rest

/-- The members of an object in the order of their keys, of several with one key the last. -/
def sortMembers (members : List (String × Value)) : List (String × Value) :=
  members.foldl (fun sorted m => putMember m.1 m.2 sorted) []

/-- The value of the first member with a key. -/
def findMember (key : String) (members : List (String × Value)) : Option Value :=
  (members.find? fun m => m.1 = key).map Prod.snd

/-- The member of an object; nothing but an object has members. -/
def Value.member? (key : String) : Value → Option Value
  | .object members => findMember key members
  | _ => none

end DownloadReport.Json

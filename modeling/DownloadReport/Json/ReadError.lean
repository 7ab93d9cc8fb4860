import DownloadReport.Json.View
import DownloadReport.Decimal.Shortest
import DownloadReport.Decimal.Numeral
import DownloadReport.Text.Quoted

/-! Why a record could not be read: the text is at fault, or what stands in it has another shape than
    the record. -/

namespace DownloadReport.Json

/-- Floating-point numbers have no exponent from `0.00001` up to sixteen digits before the point. -/
def floatLayout : Decimal.Layout := ⟨-5, 15⟩

/-- The text of a number. -/
def Number.text : Number → String
  | .integer n _ => String.ofList (Decimal.ofInteger n)
  | .float x =>
    match Decimal.Binary64.ofFloat x with
    | .finite negative mantissa exponent =>
      String.ofList (floatLayout.writeFinite negative mantissa exponent)
    | .infinite _ | .notANumber => "null"

/-- What was found where something else was expected. -/
inductive Found where
  | null
  | bool (b : Bool)
  | number (n : Number)
  | string (s : String)
  | list
  | object

/-- What was expected. -/
inductive Expected where
  | string
  | list
  /-- An integer of 64 bits with a sign. -/
  | signed
  /-- The record of a name. -/
  | record (name : String)

inductive ReadError where
  /-- The text is at fault. -/
  | fault (f : Fault)
  | wrongKind (found : Found) (expected : Expected)
  /-- An integer that 64 bits with a sign cannot hold. -/
  | unsigned (n : Int)
  /-- A record written as a list of too few items, although a later field has to be there. -/
  | tooShort (items : Nat) (name : String) (fields : Nat)
  /-- A record written as a list of more items than it has fields. -/
  | tooLong (items : Nat)
  | duplicateField (key : String)
  | missingField (key : String)
  /-- A value in none of the forms that the type of a name admits. -/
  | noForm (name : String)
  /-- The value was read, and then turned down for a reason. -/
  | refused (reason : String)

/-- The three kinds of failure: the text ends too early, is no JSON, or has another shape. -/
inductive ReadError.Kind where
  | ended
  | malformed
  | shape
  deriving DecidableEq, Repr

def ReadError.kind : ReadError → Kind
  | .fault f => if f.isEnd then .ended else .malformed
  | _ => .shape

/-- What stands at a place, to be named in an error. -/
def View.found {σ : Type} : View σ → Found
  | .null => .null
  | .bool b => .bool b
  | .number n => .number n
  | .string s => .string s
  | .list _ => .list
  | .object _ => .object

def Found.text : Found → String
  | .null => "null"
  | .bool b => "boolean `" ++ (if b then "true" else "false") ++ "`"
  | .number (.integer n fits) => "integer `" ++ (Number.integer n fits).text ++ "`"
  | .number (.float x) => "floating point `" ++ (Number.float x).text ++ "`"
  | .string s => "string " ++ Text.quoted s
  | .list => "sequence"
  | .object => "map"

def Expected.text : Expected → String
  | .string => "a string"
  | .list => "a sequence"
  | .signed => "i64"
  | .record name => "struct " ++ name

def ReadError.message : ReadError → String
  | .fault f => f.message
  | .wrongKind found expected => "invalid type: " ++ found.text ++ ", expected " ++ expected.text
  | .unsigned n =>
    "invalid value: integer `" ++ String.ofList (Decimal.ofInteger n) ++ "`, expected " ++
      Expected.signed.text
  | .tooShort items name fields =>
    "invalid length " ++ items.repr ++ ", expected " ++ (Expected.record name).text ++ " with " ++
      fields.repr ++ (if fields = 1 then " element" else " elements")
  | .tooLong items => "invalid length " ++ items.repr ++ ", expected fewer elements in array"
  | .duplicateField key => "duplicate field `" ++ key ++ "`"
  | .missingField key => "missing field `" ++ key ++ "`"
  | .noForm name => "data did not match any variant of untagged enum " ++ name
  | .refused reason => reason

end DownloadReport.Json

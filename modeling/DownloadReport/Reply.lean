import DownloadReport.DecodeError
import DownloadReport.Json.Shape
import DownloadReport.Raw.Value

/-! The server's answer to a call, which is a JSON-RPC response: a result, or an error of the server's
    own. -/

namespace DownloadReport

open Json (Value Shape Fields)

/-- Why the server could not do what it was called for. -/
structure ServerError where
  code : Int64
  message : String
  deriving DecidableEq, Repr

/-- The answer to a call; the id is the caller's, sent back. -/
structure Reply (α : Type) where
  version : String := ""
  id : Value := .null
  result : Option α := none
  error : Option ServerError := none

namespace Shapes

def serverError : Shape ServerError :=
  .record "RpcError" <| Fields.build ServerError.mk
    |>.field "code" .signed none
    |>.field "message" .string none

/-- An answer whose result has a shape of its own. -/
def reply {α : Type} (result : Shape α) : Shape (Reply α) :=
  .record "RpcResponse" <| Fields.build Reply.mk
    |>.text "jsonrpc"
    |>.field "id" .anything (some .null)
    |>.optional "result" result
    |>.optional "error" serverError

end Shapes

def ServerError.toValue (e : ServerError) : Value :=
  .object [("code", .number (.integer e.code.toInt (by
    have := e.code.le_toInt; have := e.code.toInt_lt; omega))), ("message", .string e.message)]

def Reply.toValue {α : Type} (result : α → Value) (r : Reply α) : Value :=
  .object <|
    textMember "jsonrpc" r.version ++ [("id", r.id)] ++
    optionalMember "result" result r.result ++
    optionalMember "error" ServerError.toValue r.error

/-- The result of the call. An error of the server comes before a result beside it. -/
def Reply.outcome {α : Type} (r : Reply α) : Except DecodeError α :=
  match r.error with
  | some e => .error (.server e.code e.message)
  | none =>
    match r.result with
    | some a => .ok a
    | none => .error (.json "response has neither result nor error")

end DownloadReport

import DownloadReport.Text.Quoted

/-! Why a report could not be decoded. An error that belongs to a field names it as the report does; a
    field of a part is named with the part before it and a point between. -/

namespace DownloadReport

inductive DecodeError where
  /-- A counter that is no number within its bounds. -/
  | malformedNumber (field value : String)
  | typeMismatch (field reason : String)
  /-- A word outside a closed vocabulary. -/
  | unknownWord (field value : String)
  /-- The text is no JSON, or not of the expected shape. -/
  | json (reason : String)
  /-- The server answered with an error of its own. -/
  | server (code : Int64) (reason : String)
  deriving DecidableEq, Repr

namespace DecodeError

/-- The field that failed, if the error belongs to one. -/
def field? : DecodeError → Option String
  | .malformedNumber field _ | .typeMismatch field _ | .unknownWord field _ => some field
  | .json _ | .server _ _ => none

/-- Whether the report itself is at fault, and not the server. -/
def isPayloadError : DecodeError → Bool
  | .server _ _ => false
  | _ => true

def message : DecodeError → String
  | .malformedNumber field value => "Malformed numeric field `" ++ field ++ "`: " ++ Text.quoted value
  | .typeMismatch field reason => "Type mismatch in `" ++ field ++ "`: " ++ reason
  | .unknownWord field value => "Unknown value for `" ++ field ++ "`: " ++ Text.quoted value
  | .json reason => "Invalid JSON payload: " ++ reason
  | .server code reason => "RPC error " ++ toString code.toInt ++ ": " ++ reason

end DecodeError

end DownloadReport

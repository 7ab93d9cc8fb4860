import DownloadReport.Download.Encoding
import DownloadReport.Payload
import DownloadReport.Summary

/-! Showing a report: the text is decoded as reports on downloads and rendered for a person or as JSON.
    Each kind of failure has its own exit code. -/

namespace DownloadReport

/-- Why there is nothing to show. -/
inductive InspectError where
  /-- There is no such input. -/
  | noInput (path : String)
  | io (reason : String)
  | decode (reason : String)
  /-- The server answered with an error of its own. -/
  | server (reason : String)
  | output (reason : String)
  deriving DecidableEq, Repr

namespace InspectError

/-- The exit code of a failure. -/
def exitCode : InspectError → UInt8
  | .noInput _ => 66
  | .io _ => 74
  | .decode _ => 65
  | .server _ => 69
  | .output _ => 70

def message : InspectError → String
  | .noInput path => "Input not found: " ++ path
  | .io reason => "IO error: " ++ reason
  | .decode reason => "Could not decode status: " ++ reason
  | .server reason => "aria2 returned an error: " ++ reason
  | .output reason => "Output error: " ++ reason

/-- An error of the server is told apart from one of the report. -/
def ofDecodeError (e : DecodeError) : InspectError :=
  if e.isPayloadError then .decode e.message else .server e.message

end InspectError

/-- How downloads are shown. -/
inductive Format where
  /-- A line for each. -/
  | summary
  /-- As the server would write them. -/
  | json
  deriving DecidableEq, Repr

namespace Format

/-- The name of a format. -/
def label : Format → String
  | .summary => "Summary"
  | .json => "Json"

/-- The format of a word. -/
def ofWord? (word : String) : Option Format :=
  if word = "summary" then some .summary else if word = "json" then some .json else none

end Format

/-- Downloads as JSON over several lines; a single one is written without a list around it. -/
def jsonText : List Download → String
  | [d] => d.toValue.indented
  | ds => (Json.Value.array (ds.map Download.toValue)).indented

/-- Decodes a report and shows it. -/
def render (format : Format) (text : String) : Traced Event InspectError String := do
  let ds ← (decodeAll text).mapError .ofDecodeError
  .note [.rendering ds.length format.label]
  match format with
  | .summary => return summary ds
  | .json => return jsonText ds

end DownloadReport

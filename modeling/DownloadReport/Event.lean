import DownloadReport.Traced
import DownloadReport.Vocabulary.Words
import DownloadReport.Json.Printer

/-! What is worth noting down while a report is decoded and shown: words that were kept although they
    are not known, counters that contradict each other, and the steps of the work. -/

namespace DownloadReport

inductive Event where
  /-- A report was taken out of the answer to a call. -/
  | unwrapped (id : Json.Value)
  | unknownState (raw : String)
  | unknownMode (raw : String)
  | unknownUriState (raw : String)
  /-- A download has more completed bytes than it has bytes. -/
  | exceedsTotal (gid : String) (completed total : UInt64)
  | decoded (gid : String) (state : DownloadState)
  | decodedList (count : Nat)
  | readingStandardInput
  | readingFile (path : String)
  | rendering (count : Nat) (format : String)
  | failed (reason : String)

/-- How much an event matters. -/
inductive Level where
  | trace
  | debug
  | warn
  deriving DecidableEq, Repr

def Level.text : Level → String
  | .trace => "TRACE"
  | .debug => "DEBUG"
  | .warn => "WARN"

namespace Event

def level : Event → Level
  | .unwrapped _ => .trace
  | .unknownState _ | .unknownMode _ | .unknownUriState _ => .warn
  | _ => .debug

def message : Event → String
  | .unwrapped _ => "Unwrapping JSON-RPC response"
  | .unknownState _ => "Unrecognized download status, keeping raw value"
  | .unknownMode _ => "Unrecognized torrent mode, keeping raw value"
  | .unknownUriState _ => "Unrecognized URI status, keeping raw value"
  | .exceedsTotal .. => "Completed length exceeds total length"
  | .decoded .. => "Decoded download status"
  | .decodedList _ => "Decoded download status list"
  | .readingStandardInput => "Reading status payload from stdin"
  | .readingFile _ => "Reading status payload"
  | .rendering .. => "Rendering statuses"
  | .failed _ => "Inspection failed"

/-- The names and values that belong to an event. -/
def fields : Event → List (String × String)
  | .unwrapped id => [("id", id.compact)]
  | .unknownState raw | .unknownMode raw | .unknownUriState raw => [("value", raw)]
  | .exceedsTotal gid completed total =>
    [("gid", gid), ("completed", completed.toNat.repr), ("total", total.toNat.repr)]
  | .decoded gid state => [("gid", gid), ("status", state.text)]
  | .decodedList count => [("count", count.repr)]
  | .readingStandardInput => []
  | .readingFile path => [("path", path)]
  | .rendering count format => [("count", count.repr), ("format", format)]
  | .failed reason => [("error", reason)]

/-- An event on one line. -/
def text (e : Event) : String :=
  String.join <| [e.level.text, " message=", e.message] ++
    e.fields.flatMap fun f => [" ", f.1, "=", f.2]

end Event

/-- Decoding notes events and fails with decode errors. -/
abbrev Decoding := Traced Event DecodeError

end DownloadReport

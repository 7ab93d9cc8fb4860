import DownloadReport.Download.Decoding
import DownloadReport.Reply

/-! Reports within answers. A report may come by itself or as the result of the server's answer to a
    call, the envelope around the payload; both are decoded alike. -/

namespace DownloadReport

open Json (Value Shape)

/-- Whether a value is the answer to a call and not a report: it names its version, or it has a result
    or an error and no id of a download. -/
def isReply (v : Value) : Bool :=
  (v.member? "jsonrpc").isSome ||
    ((v.member? "gid").isNone && ((v.member? "result").isSome || (v.member? "error").isSome))

/-- Reads a value as a shape says; the shape not fitting is a fault of the report. -/
def readAs {α : Type} (s : Shape α) (v : Value) : Except DecodeError α :=
  (s.readValue v).mapError fun e => .json e.message

/-- The report in a value, taken out of the answer around it if there is one. -/
def payload (v : Value) : Decoding Value :=
  if isReply v then do
    let r ← .lift (readAs (Shapes.reply .anything) v)
    .note [.unwrapped r.id]
    .lift r.outcome
  else pure v

/-- The value of a text. -/
def parse (text : String) : Except DecodeError Value :=
  (Value.parse text).mapError fun f => .json f.message

/-- The report on one download, alone or within an answer. -/
def decode (text : String) : Decoding Download := do
  let v ← .lift (parse text)
  let v ← payload v
  let raw ← .lift (readAs Shapes.rawDownload v)
  let d ← Download.ofRaw raw
  .note [.decoded d.gid d.state]
  return d

/-- The raw reports of a list, or the one raw report that is not in a list. -/
def rawDownloads : Value → Except DecodeError (List RawDownload)
  | .array items => items.mapM (readAs Shapes.rawDownload)
  | v => (readAs Shapes.rawDownload v).map fun raw => [raw]

/-- The reports on several downloads, alone or within an answer; one report counts as a list. All of
    them are looked at for their shape before the first is decoded. -/
def decodeAll (text : String) : Decoding (List Download) := do
  let v ← .lift (parse text)
  let v ← payload v
  let raws ← .lift (rawDownloads v)
  let ds ← Traced.forEach Download.ofRaw raws
  .note [.decodedList ds.length]
  return ds

end DownloadReport

import DownloadReport.Event
import DownloadReport.Progress
import DownloadReport.Raw.Basic
import DownloadReport.Scalar

/-! The files of a download and the addresses they are fetched from. -/

namespace DownloadReport

/-- An address of a file. -/
structure Uri where
  uri : String
  state : UriState
  deriving DecidableEq, Repr

namespace Uri

def ofRaw (raw : RawUri) : Uri := ⟨raw.uri, .ofText raw.status⟩

def toRaw (u : Uri) : RawUri := ⟨u.uri, u.state.text⟩

/-- A state that is not known is worth a warning, whatever it says. -/
def warnings (u : Uri) : List Event :=
  match u.state with
  | .other raw => [.unknownUriState raw]
  | .known _ => []

end Uri

/-- A file of a download. -/
structure FileEntry where
  /-- The place of the file among those of the download, from 1 on. -/
  index : UInt64 := 0
  /-- Empty until it is known where the file goes. -/
  path : String := ""
  length : UInt64 := 0
  completedLength : UInt64 := 0
  selected : Bool := false
  uris : List Uri := []
  deriving DecidableEq, Repr

namespace FileEntry

/-- How much of the file is there. -/
def progress (f : FileEntry) : Option Progress := Progress.of? f.completedLength f.length

/-- The parts of a path between its slashes, without empty ones and those that stay where they are. -/
def pathParts (path : String) : List String :=
  ((path.toList.splitOn '/').map String.ofList).filter fun part => part ≠ "" ∧ part ≠ "."

/-- The last part of the path, unless it leads upwards. -/
def fileName (f : FileEntry) : Option String :=
  (pathParts f.path).getLast?.filter (· ≠ "..")

/-- The addresses in use. -/
def usedUris (f : FileEntry) : List Uri := f.uris.filter fun u => u.state = .known .used

/-- The scalars are read in the order of the fields; the addresses cannot fail. -/
def ofRaw (raw : RawFile) : Decoding FileEntry := do
  let index ← .lift (Scalar.counter "files.index" raw.index)
  let length ← .lift (Scalar.counter "files.length" raw.length)
  let completedLength ← .lift (Scalar.counter "files.completedLength" raw.completedLength)
  let selected ← .lift (Scalar.flag "files.selected" raw.selected)
  let uris := raw.uris.map Uri.ofRaw
  .note (uris.flatMap Uri.warnings)
  return { index, path := raw.path, length, completedLength, selected, uris }

def toRaw (f : FileEntry) : RawFile where
  index := some (Scalar.counterText f.index)
  path := f.path
  length := some (Scalar.counterText f.length)
  completedLength := some (Scalar.counterText f.completedLength)
  selected := some (Scalar.flagText f.selected)
  uris := f.uris.map Uri.toRaw

end FileEntry

end DownloadReport

import DownloadReport.Vocabulary.Basic

/-! The vocabularies of a report: the stages of a download, the modes of a torrent, and the use that is
    made of an address. -/

namespace DownloadReport

/-! ### Stages of a download -/

/-- The stages that a download goes through. The server alone decides on them; they are what a report
    may have for its `status`. -/
inductive Stage where
  /-- It is being downloaded or seeded. -/
  | active
  | waiting
  | paused
  /-- It stopped because of an error. -/
  | error
  /-- It stopped and is complete. -/
  | completed
  | removed
  deriving DecidableEq, Repr

def Stage.word : Stage → String
  | .active => "active"
  | .waiting => "waiting"
  | .paused => "paused"
  | .error => "error"
  | .completed => "completed"
  | .removed => "removed"

def Stage.ofWord? : String → Option Stage
  | "active" => some .active
  | "waiting" => some .waiting
  | "paused" => some .paused
  | "error" => some .error
  | "completed" => some .completed
  | "removed" => some .removed
  | _ => none

def Stage.label : Stage → String
  | .active => "Active"
  | .waiting => "Waiting"
  | .paused => "Paused"
  | .error => "Error"
  | .completed => "Completed"
  | .removed => "Removed"

instance : Vocabulary Stage where
  word := Stage.word
  ofWord? := Stage.ofWord?
  label := Stage.label
  ofWord?_eq_some_iff text k := by
    constructor
    · intro h
      unfold Stage.ofWord? at h
      split at h <;> cases h <;> rfl
    · rintro rfl
      cases k <;> rfl

/-- The state of a download. -/
abbrev DownloadState := Word Stage

/-- The state of a download of which no state is reported. -/
def DownloadState.unreported : DownloadState := .other ""

/-- Whether the download has stopped for good. -/
def DownloadState.isFinished : DownloadState → Bool
  | .known .error | .known .completed | .known .removed => true
  | _ => false

/-- The stage that a text names; a text that names none is an error of the state. -/
def Stage.ofText (s : String) : Except DecodeError Stage := Word.ofKnownText "status" s

/-! ### Modes of a torrent -/

/-- Whether a torrent describes one file or a directory of files. -/
inductive FileMode where
  | single
  | multi
  deriving DecidableEq, Repr

def FileMode.word : FileMode → String
  | .single => "single"
  | .multi => "multi"

def FileMode.ofWord? : String → Option FileMode
  | "single" => some .single
  | "multi" => some .multi
  | _ => none

def FileMode.label : FileMode → String
  | .single => "Single"
  | .multi => "Multi"

instance : Vocabulary FileMode where
  word := FileMode.word
  ofWord? := FileMode.ofWord?
  label := FileMode.label
  ofWord?_eq_some_iff text k := by
    constructor
    · intro h
      unfold FileMode.ofWord? at h
      split at h <;> cases h <;> rfl
    · rintro rfl
      cases k <;> rfl

/-- The mode of a torrent. -/
abbrev TorrentMode := Word FileMode

/-- The mode that a text names; a text that names none is an error of the mode. -/
def FileMode.ofText (s : String) : Except DecodeError FileMode :=
  Word.ofKnownText "bittorrent.mode" s

/-! ### Use of an address -/

/-- Whether an address is used or kept for later. -/
inductive Use where
  | used
  | waiting
  deriving DecidableEq, Repr

def Use.word : Use → String
  | .used => "used"
  | .waiting => "waiting"

def Use.ofWord? : String → Option Use
  | "used" => some .used
  | "waiting" => some .waiting
  | _ => none

def Use.label : Use → String
  | .used => "Used"
  | .waiting => "Waiting"

instance : Vocabulary Use where
  word := Use.word
  ofWord? := Use.ofWord?
  label := Use.label
  ofWord?_eq_some_iff text k := by
    constructor
    · intro h
      unfold Use.ofWord? at h
      split at h <;> cases h <;> rfl
    · rintro rfl
      cases k <;> rfl

/-- The state of an address. -/
abbrev UriState := Word Use

end DownloadReport

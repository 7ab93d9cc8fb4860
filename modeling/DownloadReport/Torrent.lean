import DownloadReport.Event
import DownloadReport.Raw.Trackers
import DownloadReport.Scalar

/-! What is known of the torrent of a download. -/

namespace DownloadReport

/-- What the torrent says of itself. -/
structure TorrentInfo where
  name : String := ""
  deriving DecidableEq, Repr

structure Torrent where
  /-- Tiers of trackers, each a list of addresses. -/
  announceList : List (List String) := []
  comment : String := ""
  creationDate : Option Instant := none
  /-- Not known until the torrent itself has been fetched. -/
  mode : Option TorrentMode := none
  info : Option TorrentInfo := none
  deriving DecidableEq, Repr

namespace Torrent

/-- The name that the torrent gives itself, if it is not empty. -/
def name (t : Torrent) : Option String := (t.info.map TorrentInfo.name).filter (· ≠ "")

/-- All trackers, tier after tier. -/
def trackers (t : Torrent) : List String := t.announceList.flatten

/-- A mode that is not known is worth a warning, whatever it says. -/
def warnings (t : Torrent) : List Event :=
  match t.mode with
  | some (.other raw) => [.unknownMode raw]
  | _ => []

/-- The date of creation is the only part that can be refused. -/
def ofRaw (raw : RawTorrent) : Decoding Torrent := do
  let creationDate ← .lift (raw.creationDate.mapM (Scalar.instant "bittorrent.creationDate"))
  let t : Torrent :=
    { announceList := (raw.announceList.map AnnounceList.toTiers).getD []
      comment := raw.comment.getD ""
      creationDate
      mode := raw.mode.map .ofText
      info := raw.info.map fun i => ⟨i.name⟩ }
  .note t.warnings
  return t

def toRaw (t : Torrent) : RawTorrent where
  announceList := some (.ofTiers t.announceList)
  comment := Scalar.unlessEmpty t.comment
  creationDate := t.creationDate.map Instant.numeral
  mode := t.mode.map Word.text
  info := t.info.map fun i => ⟨i.name⟩

end Torrent

end DownloadReport

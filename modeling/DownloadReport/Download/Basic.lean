import DownloadReport.FileEntry
import DownloadReport.Torrent

/-! The report on one download, which the server calls the status of the download, and what can be
    asked of it. -/

namespace DownloadReport

structure Download where
  gid : String := ""
  state : DownloadState := .unreported
  /-- Zero while it is not known. -/
  totalLength : UInt64 := 0
  completedLength : UInt64 := 0
  uploadLength : UInt64 := 0
  pieceMap : PieceMap := {}
  downloadSpeed : UInt64 := 0
  uploadSpeed : UInt64 := 0
  infoHash : String := ""
  numSeeders : UInt64 := 0
  seeder : Bool := false
  pieceLength : UInt64 := 0
  numPieces : UInt64 := 0
  connections : UInt64 := 0
  exitCode : ExitCode := .success
  errorMessage : String := ""
  /-- The downloads that came out of this one. -/
  followedBy : List String := []
  /-- The download that this one came out of. -/
  following : String := ""
  /-- The download that this one is a part of. -/
  belongsTo : String := ""
  dir : String := ""
  files : List FileEntry := []
  torrent : Option Torrent := none
  verifiedLength : UInt64 := 0
  /-- Whether it waits for its files to be verified. -/
  verificationPending : Bool := false
  deriving DecidableEq, Repr

namespace Download

/-- How much is done, but never more than all. -/
def progress (d : Download) : Option Progress := Progress.clamped? d.completedLength d.totalLength

/-- Whether more is done than there is. -/
def exceedsTotal (d : Download) : Bool :=
  decide (0 < d.totalLength) && decide (d.totalLength < d.completedLength)

/-- Whether an error is reported, by its code or by a message. -/
def hasError (d : Download) : Bool := !d.exitCode.isSuccess || d.errorMessage ≠ ""

/-- The name of the torrent, or else of the first file, or else the first address of that file. -/
def name (d : Download) : Option String :=
  (d.torrent.bind Torrent.name).or <|
    d.files.head?.bind fun f => f.fileName.or (f.uris.head?.map Uri.uri)

/-- Whether its files are being verified or wait for it. -/
def isVerifying (d : Download) : Bool := d.verificationPending || decide (0 < d.verifiedLength)

end Download

end DownloadReport

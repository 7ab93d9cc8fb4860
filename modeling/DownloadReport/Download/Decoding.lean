import DownloadReport.Download.Basic
import DownloadReport.Raw.Shape

/-! Making a download of what the server wrote. -/

namespace DownloadReport.Download

/-- A state that is not known is worth a warning; that none is reported is not. -/
def stateWarnings (state : DownloadState) : List Event :=
  match state with
  | .other raw => if raw = "" then [] else [.unknownState raw]
  | .known _ => []

/-- Counters that contradict each other are worth a note. -/
def lengthNotes (d : Download) : List Event :=
  if d.exceedsTotal then [.exceedsTotal d.gid d.completedLength d.totalLength] else []

/-- Makes a download of what the server wrote. The first scalar that is refused counts, in this order:
    the error code, the piece map, the files, the torrent, and then the others as they follow here. -/
def ofRaw (raw : RawDownload) : Decoding Download := do
  let exitCode ← .lift (Scalar.exitCode "errorCode" raw.errorCode)
  let pieceMap ← .lift (Scalar.pieceMap raw.bitfield)
  let files ← Traced.forEach FileEntry.ofRaw (raw.files.getD [])
  let torrent ← Traced.forSome Torrent.ofRaw raw.bittorrent
  let state : DownloadState := .ofText raw.status
  .note (stateWarnings state)
  let totalLength ← .lift (Scalar.counter "totalLength" raw.totalLength)
  let completedLength ← .lift (Scalar.counter "completedLength" raw.completedLength)
  let uploadLength ← .lift (Scalar.counter "uploadLength" raw.uploadLength)
  let downloadSpeed ← .lift (Scalar.counter "downloadSpeed" raw.downloadSpeed)
  let uploadSpeed ← .lift (Scalar.counter "uploadSpeed" raw.uploadSpeed)
  let numSeeders ← .lift (Scalar.counter "numSeeders" raw.numSeeders)
  let seeder ← .lift (Scalar.flag "seeder" raw.seeder)
  let pieceLength ← .lift (Scalar.counter "pieceLength" raw.pieceLength)
  let numPieces ← .lift (Scalar.counter "numPieces" raw.numPieces)
  let connections ← .lift (Scalar.counter "connections" raw.connections)
  let verifiedLength ← .lift (Scalar.counter "verifiedLength" raw.verifiedLength)
  let verificationPending ← .lift (Scalar.flag "verifyIntegrityPending" raw.verifyIntegrityPending)
  let d : Download :=
    { gid := raw.gid, state, totalLength, completedLength, uploadLength, pieceMap, downloadSpeed
      uploadSpeed, infoHash := raw.infoHash.getD "", numSeeders, seeder, pieceLength, numPieces
      connections, exitCode, errorMessage := raw.errorMessage.getD ""
      followedBy := raw.followedBy.getD [], following := raw.following.getD ""
      belongsTo := raw.belongsTo.getD "", dir := raw.dir.getD "", files, torrent, verifiedLength
      verificationPending }
  .note d.lengthNotes
  return d

/-- Reads the report on one download. -/
def ofJson (text : String) : Decoding Download := do
  let raw ← .lift ((Shapes.rawDownload.readText text).mapError fun e => .json e.message)
  ofRaw raw

end DownloadReport.Download

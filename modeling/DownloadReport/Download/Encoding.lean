import DownloadReport.Download.Basic
import DownloadReport.Json.Printer
import DownloadReport.Raw.Value

/-! Writing a download as the server would. -/

namespace DownloadReport.Download

/-- What the server would write. What it writes of some downloads only is left out when it is empty. -/
def toRaw (d : Download) : RawDownload where
  gid := d.gid
  status := d.state.text
  totalLength := some (Scalar.counterText d.totalLength)
  completedLength := some (Scalar.counterText d.completedLength)
  uploadLength := some (Scalar.counterText d.uploadLength)
  bitfield := some d.pieceMap.toHex
  downloadSpeed := some (Scalar.counterText d.downloadSpeed)
  uploadSpeed := some (Scalar.counterText d.uploadSpeed)
  infoHash := Scalar.unlessEmpty d.infoHash
  numSeeders := some (Scalar.counterText d.numSeeders)
  seeder := some (Scalar.flagText d.seeder)
  pieceLength := some (Scalar.counterText d.pieceLength)
  numPieces := some (Scalar.counterText d.numPieces)
  connections := some (Scalar.counterText d.connections)
  errorCode := some (Scalar.counterText d.exitCode.number.toUInt64)
  errorMessage := Scalar.unlessEmpty d.errorMessage
  followedBy := some d.followedBy
  following := Scalar.unlessEmpty d.following
  belongsTo := Scalar.unlessEmpty d.belongsTo
  dir := some d.dir
  files := some (d.files.map FileEntry.toRaw)
  bittorrent := d.torrent.map Torrent.toRaw
  verifiedLength :=
    if 0 < d.verifiedLength then some (Scalar.counterText d.verifiedLength) else none
  verifyIntegrityPending := if d.verificationPending then some (Scalar.flagText true) else none

def toValue (d : Download) : Json.Value := d.toRaw.toValue

/-- The report as text. -/
def toJson (d : Download) : String := d.toValue.compact

end DownloadReport.Download

import DownloadReport.Json.Shape
import DownloadReport.Raw.Trackers

/-! What is read as a raw report. The order of the fields is their order in a report that is written as a
    list. -/

namespace DownloadReport

open Json (Shape Fields)

namespace Shapes

def announceTier : Shape AnnounceTier := .forms "AnnounceTierWire" AnnounceTier.ofValue?

def announceList : Shape AnnounceList := .forms "AnnounceListWire" AnnounceList.ofValue?

def rawUri : Shape RawUri :=
  .record "UriWire" <| Fields.build RawUri.mk
    |>.text "uri"
    |>.text "status"

def rawFile : Shape RawFile :=
  .record "FileWire" <| Fields.build RawFile.mk
    |>.optional "index" .string
    |>.text "path"
    |>.optional "length" .string
    |>.optional "completedLength" .string
    |>.optional "selected" .string
    |>.field "uris" (.list rawUri) (some [])

def rawInfo : Shape RawInfo :=
  .record "InfoWire" <| Fields.build RawInfo.mk
    |>.text "name"

def rawTorrent : Shape RawTorrent :=
  .record "BitTorrentWire" <| Fields.build RawTorrent.mk
    |>.optional "announceList" announceList
    |>.optional "comment" .string
    |>.optional "creationDate" .string
    |>.optional "mode" .string
    |>.optional "info" rawInfo

def rawDownload : Shape RawDownload :=
  .record "StatusWire" <| Fields.build RawDownload.mk
    |>.text "gid"
    |>.text "status"
    |>.optional "totalLength" .string
    |>.optional "completedLength" .string
    |>.optional "uploadLength" .string
    |>.optional "bitfield" .string
    |>.optional "downloadSpeed" .string
    |>.optional "uploadSpeed" .string
    |>.optional "infoHash" .string
    |>.optional "numSeeders" .string
    |>.optional "seeder" .string
    |>.optional "pieceLength" .string
    |>.optional "numPieces" .string
    |>.optional "connections" .string
    |>.optional "errorCode" .string
    |>.optional "errorMessage" .string
    |>.optional "followedBy" (.list .string)
    |>.optional "following" .string
    |>.optional "belongsTo" .string
    |>.optional "dir" .string
    |>.optional "files" (.list rawFile)
    |>.optional "bittorrent" rawTorrent
    |>.optional "verifiedLength" .string
    |>.optional "verifyIntegrityPending" .string

end Shapes

end DownloadReport

import DownloadReport.Raw.Trackers

/-! What is written of a raw report: its fields in their order, without those that are left out. -/

namespace DownloadReport

open Json (Value)

/-- A member that is there. -/
def textMember (key s : String) : List (String × Value) := [(key, .string s)]

/-- A member that may be left out. -/
def optionalMember {α : Type} (key : String) (toValue : α → Value) :
    Option α → List (String × Value)
  | none => []
  | some a => [(key, toValue a)]

/-- A list of strings. -/
def stringsValue (ss : List String) : Value := .array (ss.map .string)

def AnnounceTier.toValue : AnnounceTier → Value
  | .uris us => stringsValue us
  | .flat u => .string u

def AnnounceList.toValue : AnnounceList → Value
  | .tiers ts => .array (ts.map AnnounceTier.toValue)
  | .flat u => .string u

def RawUri.toValue (u : RawUri) : Value :=
  .object (textMember "uri" u.uri ++ textMember "status" u.status)

def RawFile.toValue (f : RawFile) : Value :=
  .object <|
    optionalMember "index" .string f.index ++
    textMember "path" f.path ++
    optionalMember "length" .string f.length ++
    optionalMember "completedLength" .string f.completedLength ++
    optionalMember "selected" .string f.selected ++
    [("uris", .array (f.uris.map RawUri.toValue))]

def RawInfo.toValue (i : RawInfo) : Value := .object (textMember "name" i.name)

def RawTorrent.toValue (t : RawTorrent) : Value :=
  .object <|
    optionalMember "announceList" AnnounceList.toValue t.announceList ++
    optionalMember "comment" .string t.comment ++
    optionalMember "creationDate" .string t.creationDate ++
    optionalMember "mode" .string t.mode ++
    optionalMember "info" RawInfo.toValue t.info

def RawDownload.toValue (d : RawDownload) : Value :=
  .object <|
    textMember "gid" d.gid ++
    textMember "status" d.status ++
    optionalMember "totalLength" .string d.totalLength ++
    optionalMember "completedLength" .string d.completedLength ++
    optionalMember "uploadLength" .string d.uploadLength ++
    optionalMember "bitfield" .string d.bitfield ++
    optionalMember "downloadSpeed" .string d.downloadSpeed ++
    optionalMember "uploadSpeed" .string d.uploadSpeed ++
    optionalMember "infoHash" .string d.infoHash ++
    optionalMember "numSeeders" .string d.numSeeders ++
    optionalMember "seeder" .string d.seeder ++
    optionalMember "pieceLength" .string d.pieceLength ++
    optionalMember "numPieces" .string d.numPieces ++
    optionalMember "connections" .string d.connections ++
    optionalMember "errorCode" .string d.errorCode ++
    optionalMember "errorMessage" .string d.errorMessage ++
    optionalMember "followedBy" stringsValue d.followedBy ++
    optionalMember "following" .string d.following ++
    optionalMember "belongsTo" .string d.belongsTo ++
    optionalMember "dir" .string d.dir ++
    optionalMember "files" (fun fs => .array (fs.map RawFile.toValue)) d.files ++
    optionalMember "bittorrent" RawTorrent.toValue d.bittorrent ++
    optionalMember "verifiedLength" .string d.verifiedLength ++
    optionalMember "verifyIntegrityPending" .string d.verifyIntegrityPending

end DownloadReport

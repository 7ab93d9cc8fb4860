/-! Reports as the server writes them. Every scalar is a string as it came, and what the server may leave
    out is an option. -/

namespace DownloadReport

/-- An address of a file. -/
structure RawUri where
  uri : String := ""
  status : String := ""
  deriving DecidableEq, Repr

/-- A file of a download. -/
structure RawFile where
  index : Option String := none
  path : String := ""
  length : Option String := none
  completedLength : Option String := none
  selected : Option String := none
  uris : List RawUri := []
  deriving DecidableEq, Repr

/-- What the torrent says of itself. -/
structure RawInfo where
  name : String := ""
  deriving DecidableEq, Repr

/-- A tier of trackers: a list of addresses, or one address in its place. -/
inductive AnnounceTier where
  | uris (uris : List String)
  | flat (uri : String)
  deriving DecidableEq, Repr

/-- The trackers of a torrent: a list of tiers, or one address in its place. -/
inductive AnnounceList where
  | tiers (tiers : List AnnounceTier)
  | flat (uri : String)
  deriving DecidableEq, Repr

/-- The torrent of a download. -/
structure RawTorrent where
  announceList : Option AnnounceList := none
  comment : Option String := none
  creationDate : Option String := none
  mode : Option String := none
  info : Option RawInfo := none
  deriving DecidableEq, Repr

/-- A download. -/
structure RawDownload where
  gid : String := ""
  status : String := ""
  totalLength : Option String := none
  completedLength : Option String := none
  uploadLength : Option String := none
  bitfield : Option String := none
  downloadSpeed : Option String := none
  uploadSpeed : Option String := none
  infoHash : Option String := none
  numSeeders : Option String := none
  seeder : Option String := none
  pieceLength : Option String := none
  numPieces : Option String := none
  connections : Option String := none
  errorCode : Option String := none
  errorMessage : Option String := none
  followedBy : Option (List String) := none
  following : Option String := none
  belongsTo : Option String := none
  dir : Option String := none
  files : Option (List RawFile) := none
  bittorrent : Option RawTorrent := none
  verifiedLength : Option String := none
  verifyIntegrityPending : Option String := none
  deriving DecidableEq, Repr

end DownloadReport

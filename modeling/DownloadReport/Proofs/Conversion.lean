import DownloadReport.Download.Decoding
import DownloadReport.Download.Encoding
import DownloadReport.Proofs.Outcome
import DownloadReport.Proofs.Scalars

/-! What becomes of a raw report, field by field. Each part of a report has one relation that says which
    part is made of which raw part, and the decoding of the part succeeds just when the relation
    holds (`ofRaw_eq_ok_iff`). What is noted on the way does not count here. -/

namespace DownloadReport

/-! ### Files -/

/-- A file that is made of a raw one. -/
structure FileEntry.Decodes (raw : RawFile) (f : FileEntry) : Prop where
  index : Scalar.counter "files.index" raw.index = .ok f.index
  path : f.path = raw.path
  length : Scalar.counter "files.length" raw.length = .ok f.length
  completedLength : Scalar.counter "files.completedLength" raw.completedLength = .ok f.completedLength
  selected : Scalar.flag "files.selected" raw.selected = .ok f.selected
  uris : f.uris = raw.uris.map Uri.ofRaw

theorem FileEntry.ofRaw_eq_ok_iff {raw : RawFile} {f : FileEntry} :
    (FileEntry.ofRaw raw).outcome = .ok f ↔ FileEntry.Decodes raw f := by
  simp only [FileEntry.ofRaw, Traced.outcome_bind, Traced.outcome_lift, Traced.outcome_note,
    Traced.outcome_pure, bind_eq_ok_iff, Except.ok.injEq]
  constructor
  · rintro ⟨index, hindex, length, hlength, completedLength, hcompleted, selected, hselected, _, _, rfl⟩
    exact ⟨hindex, rfl, hlength, hcompleted, hselected, rfl⟩
  · intro h
    refine ⟨_, h.index, _, h.length, _, h.completedLength, _, h.selected, (), trivial, ?_⟩
    rw [← h.path, ← h.uris]

/-! ### Torrents -/

/-- What is known of a torrent, made of the raw form of it. -/
structure Torrent.Decodes (raw : RawTorrent) (t : Torrent) : Prop where
  announceList : t.announceList = (raw.announceList.map AnnounceList.toTiers).getD []
  comment : t.comment = raw.comment.getD ""
  creationDate :
    raw.creationDate.mapM (Scalar.instant "bittorrent.creationDate") = .ok t.creationDate
  mode : t.mode = raw.mode.map .ofText
  info : t.info = raw.info.map fun i => ⟨i.name⟩

theorem Torrent.ofRaw_eq_ok_iff {raw : RawTorrent} {t : Torrent} :
    (Torrent.ofRaw raw).outcome = .ok t ↔ Torrent.Decodes raw t := by
  simp only [Torrent.ofRaw, Traced.outcome_bind, Traced.outcome_lift, Traced.outcome_note,
    Traced.outcome_pure, bind_eq_ok_iff, Except.ok.injEq]
  constructor
  · rintro ⟨creationDate, hdate, _, _, rfl⟩
    exact ⟨rfl, rfl, hdate, rfl, rfl⟩
  · intro h
    refine ⟨_, h.creationDate, (), trivial, ?_⟩
    rw [← h.announceList, ← h.comment, ← h.mode, ← h.info]

/-! ### Downloads -/

/-- A download that is made of a raw report. -/
structure Download.Decodes (raw : RawDownload) (d : Download) : Prop where
  gid : d.gid = raw.gid
  state : d.state = .ofText raw.status
  totalLength : Scalar.counter "totalLength" raw.totalLength = .ok d.totalLength
  completedLength : Scalar.counter "completedLength" raw.completedLength = .ok d.completedLength
  uploadLength : Scalar.counter "uploadLength" raw.uploadLength = .ok d.uploadLength
  pieceMap : Scalar.pieceMap raw.bitfield = .ok d.pieceMap
  downloadSpeed : Scalar.counter "downloadSpeed" raw.downloadSpeed = .ok d.downloadSpeed
  uploadSpeed : Scalar.counter "uploadSpeed" raw.uploadSpeed = .ok d.uploadSpeed
  infoHash : d.infoHash = raw.infoHash.getD ""
  numSeeders : Scalar.counter "numSeeders" raw.numSeeders = .ok d.numSeeders
  seeder : Scalar.flag "seeder" raw.seeder = .ok d.seeder
  pieceLength : Scalar.counter "pieceLength" raw.pieceLength = .ok d.pieceLength
  numPieces : Scalar.counter "numPieces" raw.numPieces = .ok d.numPieces
  connections : Scalar.counter "connections" raw.connections = .ok d.connections
  exitCode : Scalar.exitCode "errorCode" raw.errorCode = .ok d.exitCode
  errorMessage : d.errorMessage = raw.errorMessage.getD ""
  followedBy : d.followedBy = raw.followedBy.getD []
  following : d.following = raw.following.getD ""
  belongsTo : d.belongsTo = raw.belongsTo.getD ""
  dir : d.dir = raw.dir.getD ""
  files : List.Forall₂ FileEntry.Decodes (raw.files.getD []) d.files
  torrent : Option.Rel Torrent.Decodes raw.bittorrent d.torrent
  verifiedLength : Scalar.counter "verifiedLength" raw.verifiedLength = .ok d.verifiedLength
  verificationPending :
    Scalar.flag "verifyIntegrityPending" raw.verifyIntegrityPending = .ok d.verificationPending

theorem Download.ofRaw_eq_ok_iff {raw : RawDownload} {d : Download} :
    (Download.ofRaw raw).outcome = .ok d ↔ Download.Decodes raw d := by
  simp only [Download.ofRaw, Traced.outcome_bind, Traced.outcome_lift, Traced.outcome_note,
    Traced.outcome_pure, Traced.outcome_forEach, bind_eq_ok_iff, mapM_eq_ok_iff,
    forSome_eq_ok_iff, FileEntry.ofRaw_eq_ok_iff, Torrent.ofRaw_eq_ok_iff, Except.ok.injEq]
  constructor
  · rintro ⟨exitCode, hexitCode, pieceMap, hpieceMap, files, hfiles, torrent, htorrent, _, _,
      totalLength, htotal, completedLength, hcompleted, uploadLength, hupload, downloadSpeed, hdown,
      uploadSpeed, hup, numSeeders, hseeders, seeder, hseeder, pieceLength, hpieceLength, numPieces,
      hpieces, connections, hconnections, verifiedLength, hverified, verificationPending, hpending,
      _, _, rfl⟩
    exact
      { gid := rfl, state := rfl, totalLength := htotal, completedLength := hcompleted
        uploadLength := hupload, pieceMap := hpieceMap, downloadSpeed := hdown, uploadSpeed := hup
        infoHash := rfl, numSeeders := hseeders, seeder := hseeder, pieceLength := hpieceLength
        numPieces := hpieces, connections := hconnections, exitCode := hexitCode
        errorMessage := rfl, followedBy := rfl, following := rfl, belongsTo := rfl, dir := rfl
        files := hfiles, torrent := htorrent, verifiedLength := hverified
        verificationPending := hpending }
  · intro h
    refine ⟨_, h.exitCode, _, h.pieceMap, _, h.files, _, h.torrent, (), trivial, _, h.totalLength,
      _, h.completedLength, _, h.uploadLength, _, h.downloadSpeed, _, h.uploadSpeed, _,
      h.numSeeders, _, h.seeder, _, h.pieceLength, _, h.numPieces, _, h.connections, _,
      h.verifiedLength, _, h.verificationPending, (), trivial, ?_⟩
    rw [← h.gid, ← h.state, ← h.infoHash, ← h.errorMessage, ← h.followedBy, ← h.following,
      ← h.belongsTo, ← h.dir]

end DownloadReport

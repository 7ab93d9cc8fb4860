import DownloadReport.Proofs.Conversion
import DownloadReport.Proofs.Nesting
import DownloadReport.Proofs.Payload

/-! The fields of a report. For each kind of record in a report there is the list of its fields with their
    keys, and what is made of each of them. The reading of the record and the making of it, taken
    together, come to these fields one by one. -/

namespace DownloadReport

open Json (Shape Fields)

/-! ### Kinds of fields -/

namespace RecordField

variable {α β ρ : Type}

/-- A text, which is empty when it is absent. -/
def text (key : String) (get : α → String) : RecordField α where
  key
  get
  shape := .string
  absent := ""
  Makes raw s := s = raw

/-- A word, which is that of the empty text when it is absent. -/
def word {κ : Type} [Vocabulary κ] (key : String) (get : α → Word κ) : RecordField α where
  key
  get
  shape := .string
  absent := ""
  Makes raw w := w = .ofText raw

/-- What may be absent or null. -/
def optional (key : String) (shape : Shape ρ) (get : α → β) (Makes : Option ρ → β → Prop) :
    RecordField α where
  key
  get
  shape := .nullable shape
  absent := none
  Makes

/-- A counter, of which errors say `field`. -/
def counter (key field : String) (get : α → UInt64) : RecordField α :=
  optional key .string get fun raw n => Scalar.counter field raw = .ok n

def flag (key field : String) (get : α → Bool) : RecordField α :=
  optional key .string get fun raw b => Scalar.flag field raw = .ok b

/-- A text that may be null, which is as if it were empty. -/
def optionalText (key : String) (get : α → String) : RecordField α :=
  optional key .string get fun raw s => s = raw.getD ""

end RecordField

/-! ### Addresses -/

/-- An address that is made of a raw one. -/
structure Uri.Decodes (raw : RawUri) (u : Uri) : Prop where
  uri : u.uri = raw.uri
  state : u.state = .ofText raw.status

namespace Uri

theorem decodes_iff {raw : RawUri} {u : Uri} : Decodes raw u ↔ Uri.ofRaw raw = u := by
  constructor
  · rintro ⟨huri, hstate⟩
    rw [Uri.ofRaw, ← huri, ← hstate]
  · rintro rfl
    exact ⟨rfl, rfl⟩

def fields : List (RecordField Uri) := [.text "uri" Uri.uri, .word "status" Uri.state]

theorem ext_fields {u v : Uri} (h : ∀ x ∈ fields, x.get u = x.get v) : u = v := by
  cases u
  cases v
  exact (Uri.mk.injEq ..).mpr (List.forall_iff_forall_mem.2 h)

theorem assembles_fields : Assembles fields := by
  intro P h
  obtain ⟨⟨uri, huri⟩, state, hstate⟩ := List.forall_iff_forall_mem.2 h
  exact ⟨⟨uri, state⟩, List.forall_iff_forall_mem.1 ⟨huri, hstate⟩⟩

theorem readsFieldwise : ReadsFieldwise Shapes.rawUri Decodes fields := by
  refine ⟨_, _, rfl, Shapes.wellKeyed_rawUri, rfl, fun es u => ?_⟩
  simp only [Fields.text, Json.exists_reads_field_iff, Json.exists_reads_build_iff,
    ← List.forall_iff_forall_mem]
  constructor
  · rintro ⟨uri, huri, status, hstatus, h⟩
    exact ⟨⟨uri, huri, h.uri⟩, status, hstatus, h.state⟩
  · rintro ⟨⟨uri, huri, hmakes⟩, status, hstatus, hmakes'⟩
    exact ⟨uri, huri, status, hstatus, hmakes, hmakes'⟩

end Uri

instance : Fieldwise Uri where
  shape := Shapes.rawUri
  Decodes := Uri.Decodes
  zero := ⟨"", .other ""⟩
  fields := Uri.fields
  ext := Uri.ext_fields
  decodes_unique ha hb := (Uri.decodes_iff.1 ha).symm.trans (Uri.decodes_iff.1 hb)
  makes_zero := List.forall_iff_forall_mem.1 ⟨rfl, rfl⟩
  assembles := Uri.assembles_fields
  readsFieldwise := Uri.readsFieldwise

/-! ### Files -/

namespace FileEntry

def urisField : RecordField FileEntry := .items "uris" uris

def fields : List (RecordField FileEntry) :=
  [.counter "index" "files.index" index,
    .text "path" path,
    .counter "length" "files.length" length,
    .counter "completedLength" "files.completedLength" completedLength,
    .flag "selected" "files.selected" selected,
    urisField]

theorem urisField_mem : urisField ∈ fields := by simp [fields]

theorem ext_fields {f g : FileEntry} (h : ∀ x ∈ fields, x.get f = x.get g) : f = g := by
  cases f
  cases g
  exact (FileEntry.mk.injEq ..).mpr (List.forall_iff_forall_mem.2 h)

theorem assembles_fields : Assembles fields := by
  intro P h
  obtain ⟨⟨index, hindex⟩, ⟨path, hpath⟩, ⟨length, hlength⟩, ⟨completedLength, hcompleted⟩,
    ⟨selected, hselected⟩, uris, huris⟩ := List.forall_iff_forall_mem.2 h
  exact ⟨⟨index, path, length, completedLength, selected, uris⟩,
    List.forall_iff_forall_mem.1 ⟨hindex, hpath, hlength, hcompleted, hselected, huris⟩⟩

/-- The addresses of a file are made one by one. -/
theorem decodes_uris_iff {raws : List RawUri} {us : List Uri} :
    List.Forall₂ Uri.Decodes raws us ↔ us = raws.map Uri.ofRaw :=
  calc List.Forall₂ Uri.Decodes raws us
    _ ↔ List.Forall₂ (fun raw u => Uri.ofRaw raw = u) raws us :=
      ⟨fun h => h.imp fun _ _ => Uri.decodes_iff.1, fun h => h.imp fun _ _ => Uri.decodes_iff.2⟩
    _ ↔ List.Forall₂ Eq (raws.map Uri.ofRaw) us := List.forall₂_map_left_iff.symm
    _ ↔ us = raws.map Uri.ofRaw := by rw [List.forall₂_eq_eq_eq, eq_comm]

theorem readsFieldwise : ReadsFieldwise Shapes.rawFile Decodes fields := by
  refine ⟨_, _, rfl, Shapes.wellKeyed_rawFile, rfl, fun es f => ?_⟩
  simp only [Fields.text, Fields.optional, Json.exists_reads_field_iff, Json.exists_reads_build_iff,
    ← List.forall_iff_forall_mem]
  constructor
  · rintro ⟨index, hindex, path, hpath, length, hlength, completedLength, hcompleted, selected,
      hselected, uris, huris, h⟩
    exact ⟨⟨index, hindex, h.index⟩, ⟨path, hpath, h.path⟩, ⟨length, hlength, h.length⟩,
      ⟨completedLength, hcompleted, h.completedLength⟩, ⟨selected, hselected, h.selected⟩,
      uris, huris, decodes_uris_iff.2 h.uris⟩
  · rintro ⟨⟨index, hindex, hindex'⟩, ⟨path, hpath, hpath'⟩, ⟨length, hlength, hlength'⟩,
      ⟨completedLength, hcompleted, hcompleted'⟩, ⟨selected, hselected, hselected'⟩,
      uris, huris, huris'⟩
    exact ⟨index, hindex, path, hpath, length, hlength, completedLength, hcompleted, selected,
      hselected, uris, huris, hindex', hpath', hlength', hcompleted', hselected',
      decodes_uris_iff.1 huris'⟩

theorem decodes_unique {raw : RawFile} {f g : FileEntry} (hf : Decodes raw f) (hg : Decodes raw g) :
    f = g :=
  Except.ok.inj ((ofRaw_eq_ok_iff.2 hf).symm.trans (ofRaw_eq_ok_iff.2 hg))

end FileEntry

instance : Fieldwise FileEntry where
  shape := Shapes.rawFile
  Decodes := FileEntry.Decodes
  zero := {}
  fields := FileEntry.fields
  ext := FileEntry.ext_fields
  decodes_unique := FileEntry.decodes_unique
  makes_zero := List.forall_iff_forall_mem.1 ⟨rfl, rfl, rfl, rfl, rfl, .nil⟩
  assembles := FileEntry.assembles_fields
  readsFieldwise := FileEntry.readsFieldwise

/-! ### Torrents -/

/-- What a torrent says of itself, made of the raw form of it. -/
structure TorrentInfo.Decodes (raw : RawInfo) (i : TorrentInfo) : Prop where
  name : i.name = raw.name

namespace TorrentInfo

def fields : List (RecordField TorrentInfo) := [.text "name" name]

theorem ext_fields {i j : TorrentInfo} (h : ∀ x ∈ fields, x.get i = x.get j) : i = j := by
  cases i
  cases j
  exact (TorrentInfo.mk.injEq ..).mpr (List.forall_iff_forall_mem.2 h)

theorem assembles_fields : Assembles fields := by
  intro P h
  obtain ⟨name, hname⟩ := List.forall_iff_forall_mem.2 h
  exact ⟨⟨name⟩, List.forall_iff_forall_mem.1 hname⟩

theorem readsFieldwise : ReadsFieldwise Shapes.rawInfo Decodes fields := by
  refine ⟨_, _, rfl, Shapes.wellKeyed_rawInfo, rfl, fun es i => ?_⟩
  simp only [Fields.text, Json.exists_reads_field_iff, Json.exists_reads_build_iff,
    ← List.forall_iff_forall_mem]
  constructor
  · rintro ⟨name, hname, h⟩
    exact ⟨name, hname, h.name⟩
  · rintro ⟨name, hname, hmakes⟩
    exact ⟨name, hname, ⟨hmakes⟩⟩

theorem decodes_unique {raw : RawInfo} {i j : TorrentInfo} (hi : Decodes raw i)
    (hj : Decodes raw j) : i = j := by
  cases i
  cases j
  exact congrArg TorrentInfo.mk (hi.name.trans hj.name.symm)

end TorrentInfo

instance : Fieldwise TorrentInfo where
  shape := Shapes.rawInfo
  Decodes := TorrentInfo.Decodes
  zero := {}
  fields := TorrentInfo.fields
  ext := TorrentInfo.ext_fields
  decodes_unique := TorrentInfo.decodes_unique
  makes_zero := List.forall_iff_forall_mem.1 rfl
  assembles := TorrentInfo.assembles_fields
  readsFieldwise := TorrentInfo.readsFieldwise

namespace Torrent

def infoField : RecordField Torrent := .present "info" info

def fields : List (RecordField Torrent) :=
  [.optional "announceList" Shapes.announceList announceList fun raw ts =>
      ts = (raw.map AnnounceList.toTiers).getD [],
    .optionalText "comment" comment,
    .optional "creationDate" .string creationDate fun raw t =>
      raw.mapM (Scalar.instant "bittorrent.creationDate") = .ok t,
    .optional "mode" .string mode fun raw w => w = raw.map .ofText,
    infoField]

theorem infoField_mem : infoField ∈ fields := by simp [fields]

theorem ext_fields {t u : Torrent} (h : ∀ x ∈ fields, x.get t = x.get u) : t = u := by
  cases t
  cases u
  exact (Torrent.mk.injEq ..).mpr (List.forall_iff_forall_mem.2 h)

theorem assembles_fields : Assembles fields := by
  intro P h
  obtain ⟨⟨announceList, hannounce⟩, ⟨comment, hcomment⟩, ⟨creationDate, hdate⟩, ⟨mode, hmode⟩,
    info, hinfo⟩ := List.forall_iff_forall_mem.2 h
  exact ⟨⟨announceList, comment, creationDate, mode, info⟩,
    List.forall_iff_forall_mem.1 ⟨hannounce, hcomment, hdate, hmode, hinfo⟩⟩

/-- What the torrent says of itself is there when the raw form of it is. -/
theorem decodes_info_iff {raw : Option RawInfo} {info : Option TorrentInfo} :
    Option.Rel TorrentInfo.Decodes raw info ↔ info = raw.map fun i => ⟨i.name⟩ := by
  constructor
  · rintro (⟨h⟩ | _)
    · exact congrArg (fun name => some (TorrentInfo.mk name)) h.name
    · rfl
  · rintro rfl
    cases raw with
    | none => exact .none
    | some i => exact .some ⟨rfl⟩

theorem readsFieldwise : ReadsFieldwise Shapes.rawTorrent Decodes fields := by
  refine ⟨_, _, rfl, Shapes.wellKeyed_rawTorrent, rfl, fun es t => ?_⟩
  simp only [Fields.optional, Json.exists_reads_field_iff, Json.exists_reads_build_iff,
    ← List.forall_iff_forall_mem]
  constructor
  · rintro ⟨announceList, hannounce, comment, hcomment, creationDate, hdate, mode, hmode, info, hinfo, h⟩
    exact ⟨⟨announceList, hannounce, h.announceList⟩, ⟨comment, hcomment, h.comment⟩,
      ⟨creationDate, hdate, h.creationDate⟩, ⟨mode, hmode, h.mode⟩,
      info, hinfo, decodes_info_iff.2 h.info⟩
  · rintro ⟨⟨announceList, hannounce, hannounce'⟩, ⟨comment, hcomment, hcomment'⟩,
      ⟨creationDate, hdate, hdate'⟩, ⟨mode, hmode, hmode'⟩, info, hinfo, hinfo'⟩
    exact ⟨announceList, hannounce, comment, hcomment, creationDate, hdate, mode, hmode, info, hinfo,
      hannounce', hcomment', hdate', hmode', decodes_info_iff.1 hinfo'⟩

theorem decodes_unique {raw : RawTorrent} {t u : Torrent} (ht : Decodes raw t)
    (hu : Decodes raw u) : t = u :=
  Except.ok.inj ((ofRaw_eq_ok_iff.2 ht).symm.trans (ofRaw_eq_ok_iff.2 hu))

end Torrent

instance : Fieldwise Torrent where
  shape := Shapes.rawTorrent
  Decodes := Torrent.Decodes
  zero := {}
  fields := Torrent.fields
  ext := Torrent.ext_fields
  decodes_unique := Torrent.decodes_unique
  makes_zero := List.forall_iff_forall_mem.1 ⟨rfl, rfl, rfl, rfl, .none⟩
  assembles := Torrent.assembles_fields
  readsFieldwise := Torrent.readsFieldwise

/-! ### Downloads -/

namespace Download

def filesField : RecordField Download := .optionalItems "files" files

def torrentField : RecordField Download := .present "bittorrent" torrent

def fields : List (RecordField Download) :=
  [.text "gid" gid,
    .word "status" state,
    .counter "totalLength" "totalLength" totalLength,
    .counter "completedLength" "completedLength" completedLength,
    .counter "uploadLength" "uploadLength" uploadLength,
    .optional "bitfield" .string pieceMap fun raw m => Scalar.pieceMap raw = .ok m,
    .counter "downloadSpeed" "downloadSpeed" downloadSpeed,
    .counter "uploadSpeed" "uploadSpeed" uploadSpeed,
    .optionalText "infoHash" infoHash,
    .counter "numSeeders" "numSeeders" numSeeders,
    .flag "seeder" "seeder" seeder,
    .counter "pieceLength" "pieceLength" pieceLength,
    .counter "numPieces" "numPieces" numPieces,
    .counter "connections" "connections" connections,
    .optional "errorCode" .string exitCode fun raw c => Scalar.exitCode "errorCode" raw = .ok c,
    .optionalText "errorMessage" errorMessage,
    .optional "followedBy" (.list .string) followedBy fun raw ss => ss = raw.getD [],
    .optionalText "following" following,
    .optionalText "belongsTo" belongsTo,
    .optionalText "dir" dir,
    filesField,
    torrentField,
    .counter "verifiedLength" "verifiedLength" verifiedLength,
    .flag "verifyIntegrityPending" "verifyIntegrityPending" verificationPending]

theorem filesField_mem : filesField ∈ fields := by simp [fields]

theorem torrentField_mem : torrentField ∈ fields := by simp [fields]

theorem ext_fields {d e : Download} (h : ∀ x ∈ fields, x.get d = x.get e) : d = e := by
  cases d
  cases e
  exact (Download.mk.injEq ..).mpr (List.forall_iff_forall_mem.2 h)

theorem assembles_fields : Assembles fields := by
  intro P h
  obtain ⟨⟨gid, hgid⟩, ⟨state, hstate⟩, ⟨totalLength, htotal⟩, ⟨completedLength, hcompleted⟩,
    ⟨uploadLength, hupload⟩, ⟨pieceMap, hpieceMap⟩, ⟨downloadSpeed, hdown⟩, ⟨uploadSpeed, hup⟩,
    ⟨infoHash, hinfoHash⟩, ⟨numSeeders, hseeders⟩, ⟨seeder, hseeder⟩, ⟨pieceLength, hpieceLength⟩,
    ⟨numPieces, hpieces⟩, ⟨connections, hconnections⟩, ⟨exitCode, hexitCode⟩,
    ⟨errorMessage, hmessage⟩, ⟨followedBy, hfollowedBy⟩, ⟨following, hfollowing⟩,
    ⟨belongsTo, hbelongsTo⟩, ⟨dir, hdir⟩, ⟨files, hfiles⟩, ⟨torrent, htorrent⟩,
    ⟨verifiedLength, hverified⟩, verificationPending, hpending⟩ := List.forall_iff_forall_mem.2 h
  exact ⟨⟨gid, state, totalLength, completedLength, uploadLength, pieceMap, downloadSpeed,
    uploadSpeed, infoHash, numSeeders, seeder, pieceLength, numPieces, connections, exitCode,
    errorMessage, followedBy, following, belongsTo, dir, files, torrent, verifiedLength,
    verificationPending⟩, List.forall_iff_forall_mem.1 ⟨hgid, hstate, htotal, hcompleted, hupload,
    hpieceMap, hdown, hup, hinfoHash, hseeders, hseeder, hpieceLength, hpieces, hconnections,
    hexitCode, hmessage, hfollowedBy, hfollowing, hbelongsTo, hdir, hfiles, htorrent, hverified,
    hpending⟩⟩

theorem readsFieldwise : ReadsFieldwise Shapes.rawDownload Decodes fields := by
  refine ⟨_, _, rfl, Shapes.wellKeyed_rawDownload, rfl, fun es d => ?_⟩
  simp only [Fields.text, Fields.optional, Json.exists_reads_field_iff, Json.exists_reads_build_iff,
    ← List.forall_iff_forall_mem]
  constructor
  · rintro ⟨gid, hgid, state, hstate, totalLength, htotal, completedLength, hcompleted,
      uploadLength, hupload, pieceMap, hpieceMap, downloadSpeed, hdown, uploadSpeed, hup, infoHash,
      hinfoHash, numSeeders, hseeders, seeder, hseeder, pieceLength, hpieceLength, numPieces,
      hpieces, connections, hconnections, exitCode, hexitCode, errorMessage, hmessage, followedBy,
      hfollowedBy, following, hfollowing, belongsTo, hbelongsTo, dir, hdir, files, hfiles, torrent,
      htorrent, verifiedLength, hverified, verificationPending, hpending, h⟩
    exact ⟨⟨gid, hgid, h.gid⟩, ⟨state, hstate, h.state⟩, ⟨totalLength, htotal, h.totalLength⟩,
      ⟨completedLength, hcompleted, h.completedLength⟩, ⟨uploadLength, hupload, h.uploadLength⟩,
      ⟨pieceMap, hpieceMap, h.pieceMap⟩, ⟨downloadSpeed, hdown, h.downloadSpeed⟩,
      ⟨uploadSpeed, hup, h.uploadSpeed⟩, ⟨infoHash, hinfoHash, h.infoHash⟩,
      ⟨numSeeders, hseeders, h.numSeeders⟩, ⟨seeder, hseeder, h.seeder⟩,
      ⟨pieceLength, hpieceLength, h.pieceLength⟩, ⟨numPieces, hpieces, h.numPieces⟩,
      ⟨connections, hconnections, h.connections⟩, ⟨exitCode, hexitCode, h.exitCode⟩,
      ⟨errorMessage, hmessage, h.errorMessage⟩, ⟨followedBy, hfollowedBy, h.followedBy⟩,
      ⟨following, hfollowing, h.following⟩, ⟨belongsTo, hbelongsTo, h.belongsTo⟩,
      ⟨dir, hdir, h.dir⟩, ⟨files, hfiles, h.files⟩, ⟨torrent, htorrent, h.torrent⟩,
      ⟨verifiedLength, hverified, h.verifiedLength⟩, verificationPending, hpending,
      h.verificationPending⟩
  · rintro ⟨⟨gid, hgid, hgid'⟩, ⟨state, hstate, hstate'⟩, ⟨totalLength, htotal, htotal'⟩,
      ⟨completedLength, hcompleted, hcompleted'⟩, ⟨uploadLength, hupload, hupload'⟩,
      ⟨pieceMap, hpieceMap, hpieceMap'⟩, ⟨downloadSpeed, hdown, hdown'⟩, ⟨uploadSpeed, hup, hup'⟩,
      ⟨infoHash, hinfoHash, hinfoHash'⟩, ⟨numSeeders, hseeders, hseeders'⟩,
      ⟨seeder, hseeder, hseeder'⟩, ⟨pieceLength, hpieceLength, hpieceLength'⟩,
      ⟨numPieces, hpieces, hpieces'⟩, ⟨connections, hconnections, hconnections'⟩,
      ⟨exitCode, hexitCode, hexitCode'⟩, ⟨errorMessage, hmessage, hmessage'⟩,
      ⟨followedBy, hfollowedBy, hfollowedBy'⟩, ⟨following, hfollowing, hfollowing'⟩,
      ⟨belongsTo, hbelongsTo, hbelongsTo'⟩, ⟨dir, hdir, hdir'⟩, ⟨files, hfiles, hfiles'⟩,
      ⟨torrent, htorrent, htorrent'⟩, ⟨verifiedLength, hverified, hverified'⟩, verificationPending,
      hpending, hpending'⟩
    exact ⟨gid, hgid, state, hstate, totalLength, htotal, completedLength, hcompleted, uploadLength,
      hupload, pieceMap, hpieceMap, downloadSpeed, hdown, uploadSpeed, hup, infoHash, hinfoHash,
      numSeeders, hseeders, seeder, hseeder, pieceLength, hpieceLength, numPieces, hpieces,
      connections, hconnections, exitCode, hexitCode, errorMessage, hmessage, followedBy,
      hfollowedBy, following, hfollowing, belongsTo, hbelongsTo, dir, hdir, files, hfiles, torrent,
      htorrent, verifiedLength, hverified, verificationPending, hpending, hgid', hstate', htotal',
      hcompleted', hupload', hpieceMap', hdown', hup', hinfoHash', hseeders', hseeder',
      hpieceLength', hpieces', hconnections', hexitCode', hmessage', hfollowedBy', hfollowing',
      hbelongsTo', hdir', hfiles', htorrent', hverified', hpending'⟩

theorem decodes_unique {raw : RawDownload} {d e : Download} (hd : Decodes raw d)
    (he : Decodes raw e) : d = e :=
  Except.ok.inj ((ofRaw_eq_ok_iff.2 hd).symm.trans (ofRaw_eq_ok_iff.2 he))

end Download

instance : Fieldwise Download where
  shape := Shapes.rawDownload
  Decodes := Download.Decodes
  zero := {}
  fields := Download.fields
  ext := Download.ext_fields
  decodes_unique := Download.decodes_unique
  makes_zero := List.forall_iff_forall_mem.1
    ⟨rfl, rfl, rfl, rfl, rfl, rfl, rfl, rfl, rfl, rfl, rfl, rfl, rfl, rfl, rfl, rfl, rfl, rfl, rfl,
      rfl, .nil, .none, rfl, rfl⟩
  assembles := Download.assembles_fields
  readsFieldwise := Download.readsFieldwise

end DownloadReport

import DownloadReport.Proofs.Canonical
import DownloadReport.Proofs.Hexadecimal
import DownloadReport.Proofs.Numerals

/-! The normal form of raw reports. A report can be said in many ways: with needless zeros, with digits
    of either case, with a part left out or empty. Writing a download chooses one of them, and the
    normal form says which, part by part. What is written is always in normal form
    (`isNormal_toRaw`), and of the raw reports that are decoded as one download, the one in normal
    form is the one that is written (`toRaw_normal_form`). -/

namespace DownloadReport

attribute [ext] RawFile RawTorrent RawDownload

/-! ### Scalars -/

namespace Scalar

/-- A number that is there, with no needless zeros. -/
def IsShortest (raw : Option String) : Prop :=
  ∃ text, raw = some text ∧ Json.IsWhole text.toList

theorem isWhole_counterText (n : UInt64) : Json.IsWhole (counterText n).toList := by
  rw [counterText, String.toList_ofList]
  exact Json.isWhole_ofNatural n.toNat

theorem isShortest_counterText (n : UInt64) : IsShortest (some (counterText n)) :=
  ⟨_, rfl, isWhole_counterText n⟩

/-- A counter with no needless zeros is written as it was. -/
theorem counterText_of_isShortest {field : String} {raw : Option String} {n : UInt64}
    (h : counter field raw = .ok n) (hraw : IsShortest raw) : some (counterText n) = raw := by
  obtain ⟨text, rfl, hwhole⟩ := hraw
  have htext := (Decimal.ofNatural_eq_iff (counter_eq_ok_iff.1 h)).2 hwhole
  rw [counterText, htext, String.ofList_toList]

theorem exitCodeText_of_isShortest {field : String} {raw : Option String} {code : ExitCode}
    (h : exitCode field raw = .ok code) (hraw : IsShortest raw) :
    some (counterText code.number.toUInt64) = raw := by
  obtain ⟨text, rfl, hwhole⟩ := hraw
  obtain ⟨n, hn, rfl⟩ := exitCode_eq_ok_iff.1 h
  have htext := (Decimal.ofNatural_eq_iff hn).2 hwhole
  rw [ExitCode.number_ofNumber, counterText, UInt32.toNat_toUInt64, htext, String.ofList_toList]

/-- A flag that is there is written as it was. -/
theorem flagText_of_isSome {field : String} {raw : Option String} {b : Bool}
    (h : flag field raw = .ok b) (hraw : raw.isSome) : some (flagText b) = raw := by
  obtain ⟨text, rfl⟩ := Option.isSome_iff_exists.1 hraw
  rw [flag_eq_ok_iff.1 h]

theorem unlessEmpty_ne (s : String) : unlessEmpty s ≠ some "" := by
  intro h
  unfold unlessEmpty at h
  split at h
  · exact nomatch h
  next hs => exact hs (Option.some.inj h)

/-- A text that is left out or not empty is written as it was. -/
theorem unlessEmpty_of_getD {raw : Option String} {s : String} (h : s = raw.getD "")
    (hraw : raw ≠ some "") : unlessEmpty s = raw := by
  cases raw with
  | none =>
    rw [h]
    rfl
  | some text =>
    have htext : text ≠ "" := by simpa using hraw
    rw [h, Option.getD_some, unlessEmpty, if_neg htext]

/-- A piece map in lower case is written as it was. -/
theorem toHex_of_isLowerHex {raw : Option String} {m : PieceMap} (h : pieceMap raw = .ok m)
    (hraw : ∃ text, raw = some text ∧ Hex.IsLowerHex text) : some m.toHex = raw := by
  obtain ⟨text, rfl, hlower⟩ := hraw
  rw [(pieceMap_eq_ok_iff.1 h).2, Hex.toLower_of_lowerDigits hlower.lower]

/-- An instant with no needless sign or zeros is written as it was. -/
theorem numeral_of_isShortest {field text : String} {t : Instant} (h : instant field text = .ok t)
    (htext : Decimal.IsShortestInteger text.toList) : t.numeral = text := by
  have hs := (Decimal.ofInteger_eq_iff (instant_eq_ok_iff.1 h)).2 htext
  rw [Instant.numeral, hs, String.ofList_toList]

theorem counterText_ne_zero {n : UInt64} (hn : 0 < n) : counterText n ≠ "0" := by
  intro hzero
  have hdigits : Decimal.ofNatural n.toNat = ['0'] := by
    rw [← String.toList_ofList (l := Decimal.ofNatural n.toNat), ← counterText, hzero]
    rfl
  exact Json.head_ofNatural (UInt64.lt_iff_toNat_lt.1 hn) (by rw [hdigits]; rfl)

/-- A counter that is left out when it is zero. -/
theorem isWhole_of_mem_unlessZero {n : UInt64} {text : String}
    (h : text ∈ if 0 < n then some (counterText n) else none) :
    Json.IsWhole text.toList ∧ text ≠ "0" := by
  split at h
  next hn =>
    cases h
    exact ⟨isWhole_counterText n, counterText_ne_zero hn⟩
  next => exact nomatch h

theorem unlessZero_of_isWhole {field : String} {raw : Option String} {n : UInt64}
    (h : counter field raw = .ok n)
    (hraw : ∀ text ∈ raw, Json.IsWhole text.toList ∧ text ≠ "0") :
    (if 0 < n then some (counterText n) else none) = raw := by
  cases raw with
  | none =>
    cases h
    rfl
  | some text =>
    obtain ⟨hwhole, hne⟩ := hraw text rfl
    have htext := counterText_of_isShortest h ⟨text, rfl, hwhole⟩
    have hpos : 0 < n := by
      rw [UInt64.pos_iff_ne_zero]
      rintro rfl
      exact hne (Option.some.inj htext.symm)
    rw [if_pos hpos, htext]

/-- A flag that is left out when it is not set. -/
theorem unlessUnset_of_true {field : String} {raw : Option String} {b : Bool}
    (h : flag field raw = .ok b) (hraw : ∀ text ∈ raw, text = "true") :
    (if b then some (flagText true) else none) = raw := by
  cases raw with
  | none =>
    cases h
    rfl
  | some text =>
    obtain rfl := hraw text rfl
    cases h
    rfl

/-- What is there is written as it was. -/
theorem some_of_getD {α : Type} {raw : Option α} {a b : α} (h : a = raw.getD b) (hraw : raw.isSome) :
    some a = raw := by
  obtain ⟨c, rfl⟩ := Option.isSome_iff_exists.1 hraw
  rw [h, Option.getD_some]

end Scalar

/-! ### Files -/

/-- A file in normal form: every scalar is there, and the numbers without needless zeros. -/
structure RawFile.IsNormal (raw : RawFile) : Prop where
  index : Scalar.IsShortest raw.index
  length : Scalar.IsShortest raw.length
  completedLength : Scalar.IsShortest raw.completedLength
  selected : raw.selected.isSome

namespace FileEntry

theorem isNormal_toRaw (f : FileEntry) : f.toRaw.IsNormal where
  index := Scalar.isShortest_counterText f.index
  length := Scalar.isShortest_counterText f.length
  completedLength := Scalar.isShortest_counterText f.completedLength
  selected := rfl

/-- Addresses are written as they were. -/
theorem toRaw_uris (raws : List RawUri) : (raws.map Uri.ofRaw).map Uri.toRaw = raws := by
  simp [Function.comp_def, Uri.ofRaw, Uri.toRaw]

/-- A file in normal form is written as it was. -/
theorem Decodes.toRaw_eq {raw : RawFile} {f : FileEntry} (h : Decodes raw f) (hraw : raw.IsNormal) :
    f.toRaw = raw := by
  ext1
  case index => exact Scalar.counterText_of_isShortest h.index hraw.index
  case path => exact h.path
  case length => exact Scalar.counterText_of_isShortest h.length hraw.length
  case completedLength =>
    exact Scalar.counterText_of_isShortest h.completedLength hraw.completedLength
  case selected => exact Scalar.flagText_of_isSome h.selected hraw.selected
  case uris =>
    show f.uris.map Uri.toRaw = raw.uris
    rw [h.uris, toRaw_uris]

end FileEntry

/-! ### Torrents -/

/-- What is known of a torrent, in normal form: the trackers are there and in tiers, there is no empty
    comment, and the date of creation has no needless sign or zeros. -/
structure RawTorrent.IsNormal (raw : RawTorrent) : Prop where
  announceList : ∃ tiers, raw.announceList = some (.tiers tiers) ∧
    ∀ tier ∈ tiers, ∃ uris, tier = .uris uris
  comment : raw.comment ≠ some ""
  creationDate : ∀ text ∈ raw.creationDate, Decimal.IsShortestInteger text.toList

namespace Torrent

theorem isNormal_toRaw (t : Torrent) : t.toRaw.IsNormal where
  announceList := by
    refine ⟨_, rfl, fun tier htier => ?_⟩
    obtain ⟨uris, _, rfl⟩ := List.mem_map.1 htier
    exact ⟨uris, rfl⟩
  comment := Scalar.unlessEmpty_ne t.comment
  creationDate := by
    intro text htext
    obtain ⟨date, _, rfl⟩ := Option.map_eq_some_iff.1 htext
    rw [Instant.numeral, String.toList_ofList]
    exact Decimal.isShortestInteger_ofInteger date.seconds

/-- Trackers in tiers are written as they were. -/
theorem ofTiers_of_uris {tiers : List AnnounceTier} (h : ∀ tier ∈ tiers, ∃ uris, tier = .uris uris) :
    AnnounceList.ofTiers (AnnounceList.tiers tiers).toTiers = .tiers tiers := by
  rw [AnnounceList.toTiers, AnnounceList.ofTiers, List.map_map, AnnounceList.tiers.injEq]
  show tiers.map (fun tier => AnnounceTier.uris tier.toList) = tiers
  rw [map_eq_self_iff]
  intro tier htier
  obtain ⟨uris, rfl⟩ := h tier htier
  rfl

/-- A date is written as it was. -/
theorem numeral_of_mapM {field : String} {raw : Option String} {date : Option Instant}
    (h : raw.mapM (Scalar.instant field) = .ok date)
    (hraw : ∀ text ∈ raw, Decimal.IsShortestInteger text.toList) :
    date.map Instant.numeral = raw := by
  cases raw with
  | none =>
    cases h
    rfl
  | some text =>
    obtain ⟨t, ht, hdate⟩ := map_eq_ok_iff.1 h
    rw [← hdate, Option.map_some, Scalar.numeral_of_isShortest ht (hraw text rfl)]

/-- A torrent in normal form is written as it was. -/
theorem Decodes.toRaw_eq {raw : RawTorrent} {t : Torrent} (h : Decodes raw t) (hraw : raw.IsNormal) :
    t.toRaw = raw := by
  ext1
  case announceList =>
    obtain ⟨tiers, htiers, huris⟩ := hraw.announceList
    show some (AnnounceList.ofTiers t.announceList) = raw.announceList
    rw [h.announceList, htiers, Option.map_some, Option.getD_some, ofTiers_of_uris huris]
  case comment => exact Scalar.unlessEmpty_of_getD h.comment hraw.comment
  case creationDate => exact numeral_of_mapM h.creationDate hraw.creationDate
  case mode =>
    show t.mode.map Word.text = raw.mode
    simp [h.mode, Function.comp_def]
  case info =>
    show (t.info.map fun i => (⟨i.name⟩ : RawInfo)) = raw.info
    simp [h.info, Function.comp_def]

end Torrent

/-! ### Downloads -/

/-- A raw report in normal form. Numbers are there and without needless zeros, except that of the bytes
    that are verified, which is left out when it is zero. The piece map is there and in lower case,
    and of the flags one is there, and the other when it is set. Some texts are left out when
    they are empty; files and torrent are in normal form. -/
structure RawDownload.IsNormal (raw : RawDownload) : Prop where
  totalLength : Scalar.IsShortest raw.totalLength
  completedLength : Scalar.IsShortest raw.completedLength
  uploadLength : Scalar.IsShortest raw.uploadLength
  bitfield : ∃ text, raw.bitfield = some text ∧ Hex.IsLowerHex text
  downloadSpeed : Scalar.IsShortest raw.downloadSpeed
  uploadSpeed : Scalar.IsShortest raw.uploadSpeed
  infoHash : raw.infoHash ≠ some ""
  numSeeders : Scalar.IsShortest raw.numSeeders
  seeder : raw.seeder.isSome
  pieceLength : Scalar.IsShortest raw.pieceLength
  numPieces : Scalar.IsShortest raw.numPieces
  connections : Scalar.IsShortest raw.connections
  errorCode : Scalar.IsShortest raw.errorCode
  errorMessage : raw.errorMessage ≠ some ""
  followedBy : raw.followedBy.isSome
  following : raw.following ≠ some ""
  belongsTo : raw.belongsTo ≠ some ""
  dir : raw.dir.isSome
  files : ∃ files, raw.files = some files ∧ ∀ f ∈ files, f.IsNormal
  bittorrent : ∀ t ∈ raw.bittorrent, t.IsNormal
  verifiedLength : ∀ text ∈ raw.verifiedLength, Json.IsWhole text.toList ∧ text ≠ "0"
  verifyIntegrityPending : ∀ text ∈ raw.verifyIntegrityPending, text = "true"

namespace Download

/-- What is written is in normal form. -/
theorem isNormal_toRaw (d : Download) : d.toRaw.IsNormal where
  totalLength := Scalar.isShortest_counterText d.totalLength
  completedLength := Scalar.isShortest_counterText d.completedLength
  uploadLength := Scalar.isShortest_counterText d.uploadLength
  bitfield := ⟨_, rfl, Hex.isLowerHex_encode d.pieceMap.bytes⟩
  downloadSpeed := Scalar.isShortest_counterText d.downloadSpeed
  uploadSpeed := Scalar.isShortest_counterText d.uploadSpeed
  infoHash := Scalar.unlessEmpty_ne d.infoHash
  numSeeders := Scalar.isShortest_counterText d.numSeeders
  seeder := rfl
  pieceLength := Scalar.isShortest_counterText d.pieceLength
  numPieces := Scalar.isShortest_counterText d.numPieces
  connections := Scalar.isShortest_counterText d.connections
  errorCode := Scalar.isShortest_counterText d.exitCode.number.toUInt64
  errorMessage := Scalar.unlessEmpty_ne d.errorMessage
  followedBy := rfl
  following := Scalar.unlessEmpty_ne d.following
  belongsTo := Scalar.unlessEmpty_ne d.belongsTo
  dir := rfl
  files := by
    refine ⟨_, rfl, fun raw hraw => ?_⟩
    obtain ⟨f, _, rfl⟩ := List.mem_map.1 hraw
    exact f.isNormal_toRaw
  bittorrent := by
    intro raw hraw
    obtain ⟨t, _, rfl⟩ := Option.map_eq_some_iff.1 hraw
    exact t.isNormal_toRaw
  verifiedLength := fun _ htext => Scalar.isWhole_of_mem_unlessZero htext
  verifyIntegrityPending := by
    intro text htext
    cases hpending : d.verificationPending <;> simp_all [toRaw, Scalar.flagText]

/-- Files in normal form are written as they were. -/
theorem toRaw_files {raws : List RawFile} {files : List FileEntry}
    (h : List.Forall₂ FileEntry.Decodes raws files) (hraws : ∀ f ∈ raws, f.IsNormal) :
    files.map FileEntry.toRaw = raws := by
  induction h with
  | nil => rfl
  | cons hf _ ih =>
    obtain ⟨hraw, hraws⟩ := List.forall_mem_cons.1 hraws
    rw [List.map_cons, hf.toRaw_eq hraw, ih hraws]

theorem toRaw_torrent {raw : Option RawTorrent} {torrent : Option Torrent}
    (h : Option.Rel Torrent.Decodes raw torrent) (hraw : ∀ t ∈ raw, t.IsNormal) :
    torrent.map Torrent.toRaw = raw := by
  cases h with
  | none => rfl
  | some ht => rw [Option.map_some, ht.toRaw_eq (hraw _ rfl)]

/-- A report in normal form is written as it was. -/
theorem Decodes.toRaw_eq {raw : RawDownload} {d : Download} (h : Decodes raw d)
    (hraw : raw.IsNormal) : d.toRaw = raw := by
  ext1
  case gid => exact h.gid
  case status =>
    show d.state.text = raw.status
    rw [h.state, Word.text_ofText]
  case totalLength => exact Scalar.counterText_of_isShortest h.totalLength hraw.totalLength
  case completedLength =>
    exact Scalar.counterText_of_isShortest h.completedLength hraw.completedLength
  case uploadLength => exact Scalar.counterText_of_isShortest h.uploadLength hraw.uploadLength
  case bitfield => exact Scalar.toHex_of_isLowerHex h.pieceMap hraw.bitfield
  case downloadSpeed => exact Scalar.counterText_of_isShortest h.downloadSpeed hraw.downloadSpeed
  case uploadSpeed => exact Scalar.counterText_of_isShortest h.uploadSpeed hraw.uploadSpeed
  case infoHash => exact Scalar.unlessEmpty_of_getD h.infoHash hraw.infoHash
  case numSeeders => exact Scalar.counterText_of_isShortest h.numSeeders hraw.numSeeders
  case seeder => exact Scalar.flagText_of_isSome h.seeder hraw.seeder
  case pieceLength => exact Scalar.counterText_of_isShortest h.pieceLength hraw.pieceLength
  case numPieces => exact Scalar.counterText_of_isShortest h.numPieces hraw.numPieces
  case connections => exact Scalar.counterText_of_isShortest h.connections hraw.connections
  case errorCode => exact Scalar.exitCodeText_of_isShortest h.exitCode hraw.errorCode
  case errorMessage => exact Scalar.unlessEmpty_of_getD h.errorMessage hraw.errorMessage
  case followedBy => exact Scalar.some_of_getD h.followedBy hraw.followedBy
  case following => exact Scalar.unlessEmpty_of_getD h.following hraw.following
  case belongsTo => exact Scalar.unlessEmpty_of_getD h.belongsTo hraw.belongsTo
  case dir => exact Scalar.some_of_getD h.dir hraw.dir
  case files =>
    obtain ⟨files, hfiles, hnormal⟩ := hraw.files
    have hdecoded := h.files
    rw [hfiles, Option.getD_some] at hdecoded
    show some (d.files.map FileEntry.toRaw) = raw.files
    rw [hfiles, toRaw_files hdecoded hnormal]
  case bittorrent => exact toRaw_torrent h.torrent hraw.bittorrent
  case verifiedLength => exact Scalar.unlessZero_of_isWhole h.verifiedLength hraw.verifiedLength
  case verifyIntegrityPending =>
    exact Scalar.unlessUnset_of_true h.verificationPending hraw.verifyIntegrityPending

end Download

/-- The normal form. A raw report that is decoded as a download is written in normal form, from which
    the same download is decoded again; and what is written is the raw report itself just when that
    was in normal form. -/
theorem toRaw_normal_form {raw : RawDownload} {d : Download}
    (h : (Download.ofRaw raw).outcome = .ok d) :
    d.toRaw.IsNormal ∧ (Download.ofRaw d.toRaw).outcome = .ok d ∧ (d.toRaw = raw ↔ raw.IsNormal) := by
  have hdecodes := Download.ofRaw_eq_ok_iff.1 h
  refine ⟨d.isNormal_toRaw, ?_, ?_, fun hraw => hdecodes.toRaw_eq hraw⟩
  · rw [Download.ofRaw_toRaw, Download.canonical_eq_iff.2 hdecodes.isCanonical]
  · intro hsame
    rw [← hsame]
    exact d.isNormal_toRaw

/-- Needless zeros, and a file without numbers. -/
theorem toRaw_normal_form_needless_zeros :
    (Download.ofRaw { totalLength := some "007", files := some [{ selected := some "true" }] }).outcome =
        .ok { totalLength := 7, files := [{ selected := true }] } ∧
      (Download.toRaw { totalLength := 7, files := [{ selected := true }] }).IsNormal ∧
      (Download.ofRaw (Download.toRaw { totalLength := 7, files := [{ selected := true }] })).outcome =
        .ok { totalLength := 7, files := [{ selected := true }] } ∧
      ¬RawDownload.IsNormal
        { totalLength := some "007", files := some [{ selected := some "true" }] } := by
  have hdecoded : (Download.ofRaw
      { totalLength := some "007", files := some [{ selected := some "true" }] }).outcome =
      .ok { totalLength := 7, files := [{ selected := true }] } := by rfl
  obtain ⟨hnormal, hagain, hsame⟩ := toRaw_normal_form hdecoded
  refine ⟨hdecoded, hnormal, hagain, fun hraw => ?_⟩
  have htotal := congrArg RawDownload.totalLength (hsame.2 hraw)
  exact absurd htotal (by decide)

end DownloadReport

import DownloadReport.Proofs.Conversion

/-! Canonical reports. A word that is kept as unknown although it is known, and an error code that is
    kept as unknown although the table has it, are written like their known counterparts, and so do
    not come back as they were. Everything else does: writing a download in its raw form and decoding
    that gives its canonical form (`ofRaw_toRaw`), and what is decoded is always canonical. -/

namespace DownloadReport

/-! ### Words -/

namespace Word

variable {κ : Type} [Vocabulary κ]

/-- A text that has a known meaning, as that meaning. -/
def canonical : Word κ → Word κ
  | .known k => .known k
  | .other raw => ofText raw

/-- Whether no known meaning is kept as an unknown text. -/
def IsCanonical : Word κ → Prop
  | .known _ => True
  | .other raw => (find? raw : Option κ) = none

theorem ofText_text (w : Word κ) : ofText w.text = w.canonical := by
  cases w with
  | known k => rw [text, ofText, find?_word]; rfl
  | other raw => rfl

theorem isCanonical_ofText (s : String) : (ofText s : Word κ).IsCanonical := by
  unfold ofText
  split
  next => trivial
  next h => exact h

theorem canonical_eq_iff {w : Word κ} : w.canonical = w ↔ w.IsCanonical := by
  cases w with
  | known k => exact ⟨fun _ => trivial, fun _ => rfl⟩
  | other raw =>
    constructor
    · intro h
      have hcanonical := isCanonical_ofText (κ := κ) raw
      rw [show ofText raw = Word.other raw from h] at hcanonical
      exact hcanonical
    · intro h
      have hnone : (find? raw : Option κ) = none := h
      rw [canonical, ofText, hnone]

end Word

/-! ### Error codes -/

namespace ExitCode

/-- A code that the table has, as the table has it. -/
def canonical : ExitCode → ExitCode
  | .other n => ofNumber n
  | code => code

/-- Whether no number of the table is kept as unknown. -/
def IsCanonical : ExitCode → Prop
  | .other n => 32 < n
  | _ => True

theorem ofNumber_number (code : ExitCode) : ofNumber code.number = code.canonical := by
  cases code <;> rfl

/-- The table holds no unknown code. -/
theorem isCanonical_of_mem_known {code : ExitCode} (h : code ∈ known) : code.IsCanonical := by
  cases code with
  | other n => simp [known] at h
  | _ => trivial

/-- The table ends with number 32. -/
theorem getElem?_known {n : UInt32} : known[n.toNat]? = none ↔ 32 < n := by
  rw [List.getElem?_eq_none_iff, UInt32.lt_iff_toNat_lt]
  exact .rfl

/-- A code has the number that it was made of. -/
theorem number_ofNumber (n : UInt32) : (ofNumber n).number = n := by
  rcases Nat.lt_or_ge n.toNat 33 with hn | hn
  · have hall : ∀ k < 33, (ofNumber (UInt32.ofNat k)).number = UInt32.ofNat k := by decide
    have hnumber := hall n.toNat hn
    rwa [UInt32.ofNat_toNat] at hnumber
  · have hunknown : 32 < n := by
      rw [UInt32.lt_iff_toNat_lt]
      exact hn
    rw [ofNumber, getElem?_known.2 hunknown]
    rfl

theorem isCanonical_ofNumber (n : UInt32) : (ofNumber n).IsCanonical := by
  unfold ofNumber
  cases h : known[n.toNat]? with
  | some code => exact isCanonical_of_mem_known (List.mem_of_getElem? h)
  | none => exact getElem?_known.1 h

theorem canonical_eq_iff {code : ExitCode} : code.canonical = code ↔ code.IsCanonical := by
  cases code with
  | other n =>
    constructor
    · intro h
      rw [← h]
      exact isCanonical_ofNumber n
    · intro h
      rw [canonical, ofNumber, getElem?_known.2 h, Option.getD_none]
  | _ => exact ⟨fun _ => trivial, fun _ => rfl⟩

end ExitCode

/-! ### Addresses, files and torrents -/

/-- Equality of lists item by item. -/
theorem map_eq_self_iff {α : Type} {f : α → α} {as : List α} :
    as.map f = as ↔ ∀ a ∈ as, f a = a := by
  rw [← List.map_inj_left, List.map_id']

/-- An address with its state as the vocabulary has it. -/
def Uri.canonical (u : Uri) : Uri := { u with state := u.state.canonical }

theorem Uri.ofRaw_toRaw (u : Uri) : Uri.ofRaw u.toRaw = u.canonical := by
  rw [Uri.ofRaw, Uri.toRaw, Word.ofText_text, Uri.canonical]

theorem Uri.canonical_eq_iff {u : Uri} : u.canonical = u ↔ u.state.IsCanonical := by
  rw [← Word.canonical_eq_iff, Uri.canonical]
  cases u
  simp

/-- A file with the states of its addresses as the vocabulary has them. -/
def FileEntry.canonical (f : FileEntry) : FileEntry := { f with uris := f.uris.map Uri.canonical }

theorem FileEntry.decodes_toRaw (f : FileEntry) : FileEntry.Decodes f.toRaw f.canonical where
  index := Scalar.counter_counterText _ _
  path := rfl
  length := Scalar.counter_counterText _ _
  completedLength := Scalar.counter_counterText _ _
  selected := Scalar.flag_flagText _ _
  uris := by
    rw [FileEntry.canonical, FileEntry.toRaw, List.map_map]
    exact List.map_congr_left fun u _ => u.ofRaw_toRaw.symm

theorem FileEntry.canonical_eq_iff {f : FileEntry} :
    f.canonical = f ↔ ∀ u ∈ f.uris, u.state.IsCanonical := by
  simp only [← Uri.canonical_eq_iff, ← map_eq_self_iff, FileEntry.canonical]
  cases f
  simp

/-- A torrent with its mode as the vocabulary has it. -/
def Torrent.canonical (t : Torrent) : Torrent := { t with mode := t.mode.map Word.canonical }

theorem Torrent.decodes_toRaw (t : Torrent) : Torrent.Decodes t.toRaw t.canonical where
  announceList := by simp [Torrent.canonical, Torrent.toRaw]
  comment := (Scalar.getD_unlessEmpty _).symm
  creationDate := by
    rw [Torrent.canonical, Torrent.toRaw]
    cases t.creationDate with
    | none => rfl
    | some date =>
      rw [Option.map_some, Option.mapM_some, Scalar.instant_numeral]
      rfl
  mode := by
    rw [Torrent.canonical, Torrent.toRaw, Option.map_map]
    exact Option.map_congr fun w _ => w.ofText_text.symm
  info := by
    rw [Torrent.canonical, Torrent.toRaw]
    cases t.info <;> rfl

theorem Torrent.canonical_eq_iff {t : Torrent} :
    t.canonical = t ↔ ∀ w ∈ t.mode, w.IsCanonical := by
  rw [Torrent.canonical]
  cases t with
  | mk announceList comment creationDate mode info =>
    cases mode <;> simp [Word.canonical_eq_iff]

/-! ### Downloads -/

namespace Download

/-- A download with its words and its error code as vocabularies and table have them. -/
def canonical (d : Download) : Download :=
  { d with
    state := d.state.canonical
    exitCode := d.exitCode.canonical
    files := d.files.map FileEntry.canonical
    torrent := d.torrent.map Torrent.canonical }

/-- Whether no word and no error code is kept as unknown although it is known. -/
structure IsCanonical (d : Download) : Prop where
  state : d.state.IsCanonical
  exitCode : d.exitCode.IsCanonical
  uris : ∀ f ∈ d.files, ∀ u ∈ f.uris, u.state.IsCanonical
  mode : ∀ t ∈ d.torrent, ∀ w ∈ t.mode, w.IsCanonical

theorem canonical_eq_iff {d : Download} : d.canonical = d ↔ d.IsCanonical := by
  have hfiles : d.files.map FileEntry.canonical = d.files ↔
      ∀ f ∈ d.files, ∀ u ∈ f.uris, u.state.IsCanonical := by
    simp only [map_eq_self_iff, FileEntry.canonical_eq_iff]
  have htorrent : d.torrent.map Torrent.canonical = d.torrent ↔
      ∀ t ∈ d.torrent, ∀ w ∈ t.mode, w.IsCanonical := by
    cases d.torrent <;> simp [Torrent.canonical_eq_iff]
  constructor
  · intro h
    exact
      { state := Word.canonical_eq_iff.1 (congrArg Download.state h)
        exitCode := ExitCode.canonical_eq_iff.1 (congrArg Download.exitCode h)
        uris := hfiles.1 (congrArg Download.files h)
        mode := htorrent.1 (congrArg Download.torrent h) }
  · intro h
    rw [canonical, Word.canonical_eq_iff.2 h.state, ExitCode.canonical_eq_iff.2 h.exitCode,
      hfiles.2 h.uris, htorrent.2 h.mode]

/-- Only what is not zero, or not false, is written of a verification. -/
theorem counter_verifiedLength (field : String) (n : UInt64) :
    Scalar.counter field (if 0 < n then some (Scalar.counterText n) else none) = .ok n := by
  split
  next => exact Scalar.counter_counterText field n
  next h =>
    have hzero : n = 0 := by simpa using h
    rw [hzero]
    rfl

theorem flag_verificationPending (field : String) (b : Bool) :
    Scalar.flag field (if b then some (Scalar.flagText true) else none) = .ok b := by
  cases b <;> rfl

theorem decodes_toRaw (d : Download) : Decodes d.toRaw d.canonical where
  gid := rfl
  state := (Word.ofText_text d.state).symm
  totalLength := Scalar.counter_counterText _ _
  completedLength := Scalar.counter_counterText _ _
  uploadLength := Scalar.counter_counterText _ _
  pieceMap := Scalar.pieceMap_toHex _
  downloadSpeed := Scalar.counter_counterText _ _
  uploadSpeed := Scalar.counter_counterText _ _
  infoHash := (Scalar.getD_unlessEmpty _).symm
  numSeeders := Scalar.counter_counterText _ _
  seeder := Scalar.flag_flagText _ _
  pieceLength := Scalar.counter_counterText _ _
  numPieces := Scalar.counter_counterText _ _
  connections := Scalar.counter_counterText _ _
  exitCode := by
    rw [toRaw, Scalar.exitCode_counterText, ExitCode.ofNumber_number]
    rfl
  errorMessage := (Scalar.getD_unlessEmpty _).symm
  followedBy := rfl
  following := (Scalar.getD_unlessEmpty _).symm
  belongsTo := (Scalar.getD_unlessEmpty _).symm
  dir := rfl
  files := by
    show List.Forall₂ FileEntry.Decodes (d.files.map FileEntry.toRaw) (d.files.map FileEntry.canonical)
    rw [List.forall₂_map_left_iff, List.forall₂_map_right_iff, List.forall₂_same]
    exact fun f _ => f.decodes_toRaw
  torrent := by
    show Option.Rel Torrent.Decodes (d.torrent.map Torrent.toRaw) (d.torrent.map Torrent.canonical)
    cases d.torrent with
    | none => exact .none
    | some t => exact .some t.decodes_toRaw
  verifiedLength := counter_verifiedLength _ _
  verificationPending := flag_verificationPending _ _

/-- Writing a download in its raw form and decoding that gives its canonical form. -/
theorem ofRaw_toRaw (d : Download) : (ofRaw d.toRaw).outcome = .ok d.canonical :=
  ofRaw_eq_ok_iff.2 (decodes_toRaw d)

/-- What is decoded is canonical. -/
theorem Decodes.isCanonical {raw : RawDownload} {d : Download} (h : Decodes raw d) :
    d.IsCanonical where
  state := by
    rw [h.state]
    exact Word.isCanonical_ofText raw.status
  exitCode := by
    obtain ⟨n, _, hn⟩ := map_eq_ok_iff.1 h.exitCode
    rw [← hn]
    exact ExitCode.isCanonical_ofNumber _
  uris := by
    intro f hf u hu
    obtain ⟨raw, _, hraw⟩ := exists_mem_left h.files hf
    rw [hraw.uris] at hu
    obtain ⟨rawUri, _, rfl⟩ := List.mem_map.1 hu
    exact Word.isCanonical_ofText rawUri.status
  mode := by
    intro t ht w hw
    have htorrent := h.torrent
    rw [Option.mem_def.1 ht] at htorrent
    generalize raw.bittorrent = r at htorrent
    cases htorrent with
    | some hraw =>
      rw [Option.mem_def, hraw.mode, Option.map_eq_some_iff] at hw
      obtain ⟨raw, _, rfl⟩ := hw
      exact Word.isCanonical_ofText raw

end Download

end DownloadReport

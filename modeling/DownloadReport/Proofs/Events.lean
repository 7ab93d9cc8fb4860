import DownloadReport.Proofs.Listing
import DownloadReport.Proofs.Conversion

/-! What is noted while a report is decoded. A run notes the events of its parts one after another, up to
    the part that fails, so for each part there are two facts: which events it notes when it succeeds
    (`events_ofRaw`), and which words come before the field that it fails at (`failsAs_ofRaw`, for any
    such relation between errors and events `Traced.FailsAs`). Put together they say what is noted of
    a whole text (`notesAll_decoding`): no word that is not known is kept without a note, and nothing
    else is noted. -/

namespace DownloadReport

open Json (Value)

/-! ### Runs and their events -/

namespace Traced

variable {η ε α β : Type}

/-- What succeeds without a note goes on with its result. -/
theorem lift_bind_of_ok {x : Except ε α} {a : α} (h : x = .ok a) (f : α → Traced η ε β) :
    lift x >>= f = f a := by
  rw [h]
  exact bind_of_ok rfl f

theorem events_bind_of_ok {x : Traced η ε α} {a : α} (h : x.outcome = .ok a)
    (f : α → Traced η ε β) : (x >>= f).events = x.events ++ (f a).events := by
  rw [bind_of_ok h]

theorem events_bind_of_error {x : Traced η ε α} {e : ε} (h : x.outcome = .error e)
    (f : α → Traced η ε β) : (x >>= f).events = x.events := by
  rw [bind_of_error h]

/-- What succeeds for each item of a list notes the events of the items one after another. -/
theorem events_forEach_of_ok {f : α → Traced η ε β} {as : List α} {bs : List β}
    (h : List.Forall₂ (fun a b => (f a).outcome = .ok b) as bs) :
    (forEach f as).events = as.flatMap fun a => (f a).events := by
  induction h with
  | nil => rfl
  | @cons a b as bs hab has ih =>
    have hrest : (forEach f as).outcome = .ok bs := by
      rw [outcome_forEach, mapM_eq_ok_iff]
      exact has
    rw [forEach, events_bind_of_ok hab, events_bind_of_ok hrest, ih, events_pure, List.append_nil,
      List.flatMap_cons]

/-- What fails for an item of a list notes the events of the items up to this one. -/
theorem events_forEach_of_error {f : α → Traced η ε β} {before after : List α} {a : α} {e : ε}
    (hbefore : ∀ b ∈ before, ∃ c, (f b).outcome = .ok c) (ha : (f a).outcome = .error e) :
    (forEach f (before ++ a :: after)).events =
      (before.flatMap fun a => (f a).events) ++ (f a).events := by
  induction before with
  | nil =>
    show (forEach f (a :: after)).events = (f a).events
    rw [forEach, events_bind_of_error ha]
  | cons b before ih =>
    obtain ⟨⟨c, hc⟩, hbefore⟩ := List.forall_mem_cons.1 hbefore
    have hrest : (forEach f (before ++ a :: after)).outcome = .error e := by
      rw [outcome_forEach, mapM_eq_error_iff]
      exact ⟨before, a, after, rfl, hbefore, ha⟩
    rw [List.cons_append, forEach, events_bind_of_ok hc, events_bind_of_error hrest, ih hbefore,
      List.flatMap_cons, List.append_assoc]

/-- Closes a run with events of what came of it; nothing closes a failure. -/
def closing (c : α → List η) (x : Traced η ε α) : Traced η ε α := do
  let a ← x
  note (c a)
  return a

theorem outcome_closing (c : α → List η) (x : Traced η ε α) : (x.closing c).outcome = x.outcome := by
  rw [closing, outcome_bind]
  exact bind_pure x.outcome

theorem events_closing_of_ok {c : α → List η} {x : Traced η ε α} {a : α} (h : x.outcome = .ok a) :
    (x.closing c).events = x.events ++ c a := by
  rw [closing, events_bind_of_ok h, events_bind_of_ok rfl, events_pure, List.append_nil]
  rfl

theorem events_closing_of_error {c : α → List η} {x : Traced η ε α} {e : ε}
    (h : x.outcome = .error e) : (x.closing c).events = x.events :=
  events_bind_of_error h _

/-- When a run fails, its error and its events are related. -/
def FailsAs (P : ε → List η → Prop) (x : Traced η ε α) : Prop :=
  ∀ e, x.outcome = .error e → P e x.events

section FailsAs

variable {P : ε → List η → Prop}

theorem failsAs_pure (a : α) : FailsAs P (pure a : Traced η ε α) := nofun

/-- A run fails in its first part, or behind the events of its first part. -/
theorem FailsAs.bind {x : Traced η ε α} {f : α → Traced η ε β} (hx : x.FailsAs P)
    (hf : ∀ a, x.outcome = .ok a → (f a).FailsAs fun e events => P e (x.events ++ events)) :
    (x >>= f).FailsAs P := by
  intro e he
  rw [outcome_bind] at he
  rcases bind_eq_error_iff.1 he with he | ⟨a, ha, he⟩
  · rw [events_bind_of_error he]
    exact hx e he
  · rw [events_bind_of_ok ha]
    exact hf a ha e he

/-- What notes nothing fails without events. -/
theorem FailsAs.lift {x : Except ε α} {f : α → Traced η ε β} (hx : ∀ e, x = .error e → P e [])
    (hf : ∀ a, (f a).FailsAs P) : (Traced.lift x >>= f).FailsAs P :=
  FailsAs.bind hx fun a _ => hf a

theorem FailsAs.note {events : List η} {f : Unit → Traced η ε β}
    (hf : (f ()).FailsAs fun e more => P e (events ++ more)) : (Traced.note events >>= f).FailsAs P :=
  FailsAs.bind nofun fun () _ => hf

end FailsAs

end Traced

/-! ### What is worth noting -/

/-- A word that is not known is noted with its text. -/
def Word.noted {κ : Type} [Vocabulary κ] (event : String → Event) (w : Word κ) : List Event :=
  if w.isOther then [event w.text] else []

/-- The states of addresses that are not known, the empty one included. -/
def uriNotes (states : List UriState) : List Event := states.flatMap (Word.noted .unknownUriState)

/-- The mode of a torrent, if there is one and it is not known, the empty one included. -/
def modeNotes (mode : Option TorrentMode) : List Event := mode.elim [] (Word.noted .unknownMode)

/-- The state of a download, if it is not known and one is reported. -/
def stateNotes (state : DownloadState) : List Event :=
  if state = .unreported then [] else state.noted .unknownState

/-- The states of the addresses of a file. -/
def FileEntry.uriStates (f : FileEntry) : List UriState := f.uris.map Uri.state

def RawFile.uriStates (f : RawFile) : List UriState := f.uris.map fun u => .ofText u.status

/-- What is noted of a download, in this order: the addresses of its files, the mode of its torrent,
    its own state, and that more of it is complete than there is. -/
def Download.notes (d : Download) : List Event :=
  uriNotes (d.files.flatMap FileEntry.uriStates) ++ modeNotes (d.torrent.bind Torrent.mode) ++
    stateNotes d.state ++
    if d.exceedsTotal then [.exceedsTotal d.gid d.completedLength d.totalLength] else []

namespace RawDownload

/-- The scalars that are read behind the state of a download. -/
def laterFields : List String :=
  ["totalLength", "completedLength", "uploadLength", "downloadSpeed", "uploadSpeed", "numSeeders",
    "seeder", "pieceLength", "numPieces", "connections", "verifiedLength", "verifyIntegrityPending"]

/-- The scalars of a file. -/
def fileFields : List String :=
  ["files.index", "files.length", "files.completedLength", "files.selected"]

/-- What is noted of a raw report that is refused: the words that come before the field of the error. -/
inductive NotedBefore (raw : RawDownload) (e : DecodeError) : List Event → Prop where
  /-- Nothing comes before the error code and the piece map. -/
  | start (hfield : e.field? = some "errorCode" ∨ e.field? = some "bitfield") : NotedBefore raw e []
  /-- The addresses of the files before the one that is refused. -/
  | file {before after : List RawFile} {f : RawFile} (hfield : ∃ k ∈ fileFields, e.field? = some k)
      (hfiles : raw.files.getD [] = before ++ f :: after)
      (hbefore : ∀ g ∈ before, ∃ entry, (FileEntry.ofRaw g).outcome = .ok entry)
      (hf : (FileEntry.ofRaw f).outcome = .error e) :
      NotedBefore raw e (uriNotes (before.flatMap RawFile.uriStates))
  /-- All addresses, but not the mode. -/
  | creationDate (hfield : e.field? = some "bittorrent.creationDate") :
      NotedBefore raw e (uriNotes ((raw.files.getD []).flatMap RawFile.uriStates))
  /-- All words. -/
  | later (hfield : ∃ k ∈ laterFields, e.field? = some k) :
      NotedBefore raw e
        (uriNotes ((raw.files.getD []).flatMap RawFile.uriStates) ++
          modeNotes ((raw.bittorrent.bind RawTorrent.mode).map .ofText) ++
          stateNotes (.ofText raw.status))

end RawDownload

/-! ### What is noted of files and torrents -/

theorem Uri.warnings_eq (u : Uri) : u.warnings = u.state.noted .unknownUriState := by
  unfold Uri.warnings Word.noted
  cases u.state <;> rfl

theorem Torrent.warnings_eq (t : Torrent) : t.warnings = modeNotes t.mode := by
  unfold Torrent.warnings modeNotes Word.noted
  rcases t.mode with _ | _ | _ <;> rfl

theorem Download.stateWarnings_eq (state : DownloadState) :
    Download.stateWarnings state = stateNotes state := by
  unfold Download.stateWarnings stateNotes Word.noted DownloadState.unreported
  cases state <;> simp [Word.isOther, Word.text]

/-- The addresses of a file that is made are noted. -/
theorem FileEntry.events_ofRaw {raw : RawFile} {f : FileEntry} (h : FileEntry.Decodes raw f) :
    (FileEntry.ofRaw raw).events = uriNotes raw.uriStates := by
  have hnotes : ((raw.uris.map Uri.ofRaw).flatMap Uri.warnings) = uriNotes raw.uriStates := by
    simp only [uriNotes, RawFile.uriStates, List.flatMap_map, Uri.warnings_eq, Uri.ofRaw]
  rw [FileEntry.ofRaw, Traced.lift_bind_of_ok h.index, Traced.lift_bind_of_ok h.length,
    Traced.lift_bind_of_ok h.completedLength, Traced.lift_bind_of_ok h.selected,
    Traced.events_bind_of_ok rfl, Traced.events_pure, List.append_nil]
  exact hnotes

/-- A file that is refused notes nothing. -/
theorem FileEntry.failsAs_ofRaw (raw : RawFile) :
    (FileEntry.ofRaw raw).FailsAs fun e events =>
      (∃ k ∈ RawDownload.fileFields, e.field? = some k) ∧ events = [] := by
  have hfield : ∀ {k : String}, k ∈ RawDownload.fileFields → ∀ {e : DecodeError},
      e.field? = some k → (∃ k ∈ RawDownload.fileFields, e.field? = some k) ∧ [] = ([] : List Event) :=
    fun hk _ he => ⟨⟨_, hk, he⟩, rfl⟩
  refine .lift (fun e he => hfield (by decide) (Scalar.counter_refused he)) fun index => ?_
  refine .lift (fun e he => hfield (by decide) (Scalar.counter_refused he)) fun length => ?_
  refine .lift (fun e he => hfield (by decide) (Scalar.counter_refused he)) fun completedLength => ?_
  refine .lift (fun e he => hfield (by decide) (Scalar.flag_refused he)) fun selected => ?_
  exact .note (Traced.failsAs_pure _)

/-- The mode of a torrent that is made is noted. -/
theorem Torrent.events_ofRaw {raw : RawTorrent} {t : Torrent} (h : Torrent.Decodes raw t) :
    (Torrent.ofRaw raw).events = modeNotes (raw.mode.map .ofText) := by
  rw [Torrent.ofRaw, Traced.lift_bind_of_ok h.creationDate, Traced.events_bind_of_ok rfl,
    Traced.events_pure, List.append_nil]
  exact Torrent.warnings_eq _

/-- A torrent that is refused notes nothing. -/
theorem Torrent.failsAs_ofRaw (raw : RawTorrent) :
    (Torrent.ofRaw raw).FailsAs fun e events =>
      e.field? = some "bittorrent.creationDate" ∧ events = [] := by
  refine .lift (fun e he => ⟨?_, rfl⟩) fun creationDate => .note (Traced.failsAs_pure _)
  cases hdate : raw.creationDate with
  | none =>
    rw [hdate] at he
    exact nomatch he
  | some date =>
    rw [hdate, Option.mapM_some] at he
    exact Scalar.instant_refused (map_eq_error_iff.1 he)

/-! ### What is noted of downloads -/

/-- Files that are made note their addresses. -/
theorem events_files {raws : List RawFile} {files : List FileEntry}
    (h : List.Forall₂ FileEntry.Decodes raws files) :
    (Traced.forEach FileEntry.ofRaw raws).events = uriNotes (raws.flatMap RawFile.uriStates) := by
  rw [Traced.events_forEach_of_ok (h.imp fun _ _ => FileEntry.ofRaw_eq_ok_iff.2), uriNotes,
    List.flatMap_assoc]
  refine List.flatMap_congr fun raw hraw => ?_
  obtain ⟨f, _, hf⟩ := exists_mem_right h hraw
  exact FileEntry.events_ofRaw hf

/-- Files that are refused note the addresses of the files before the first one that is refused. -/
theorem failsAs_files (raw : RawDownload) :
    (Traced.forEach FileEntry.ofRaw (raw.files.getD [])).FailsAs raw.NotedBefore := by
  intro e he
  rw [Traced.outcome_forEach] at he
  obtain ⟨before, f, after, hfiles, hbefore, hf⟩ := mapM_eq_error_iff.1 he
  obtain ⟨entries, hentries⟩ := exists_forall₂ hbefore
  have hmade : List.Forall₂ FileEntry.Decodes before entries :=
    hentries.imp fun _ _ => FileEntry.ofRaw_eq_ok_iff.1
  obtain ⟨hfield, hnothing⟩ := FileEntry.failsAs_ofRaw f e hf
  have hevents : (Traced.forEach FileEntry.ofRaw (raw.files.getD [])).events =
      uriNotes (before.flatMap RawFile.uriStates) := by
    rw [hfiles, Traced.events_forEach_of_error hbefore hf, hnothing, List.append_nil,
      ← events_files hmade, Traced.events_forEach_of_ok hentries]
  rw [hevents]
  exact .file hfield hfiles hbefore hf

/-- A torrent that is made, if there is one, notes its mode. -/
theorem events_torrent {raw : Option RawTorrent} {t : Option Torrent}
    (h : Option.Rel Torrent.Decodes raw t) :
    (Traced.forSome Torrent.ofRaw raw).events =
      modeNotes ((raw.bind RawTorrent.mode).map .ofText) := by
  cases h with
  | none => rfl
  | some h =>
    rw [Traced.forSome, Traced.events_bind_of_ok (Torrent.ofRaw_eq_ok_iff.2 h), Traced.events_pure,
      List.append_nil, Torrent.events_ofRaw h]
    rfl

theorem failsAs_torrent (raw : Option RawTorrent) :
    (Traced.forSome Torrent.ofRaw raw).FailsAs fun e events =>
      e.field? = some "bittorrent.creationDate" ∧ events = [] := by
  cases raw with
  | none => exact Traced.failsAs_pure _
  | some raw => exact .bind (Torrent.failsAs_ofRaw raw) fun t _ => Traced.failsAs_pure _

/-- The states of addresses are those of the raw files. -/
theorem uriStates_files {raws : List RawFile} {files : List FileEntry}
    (h : List.Forall₂ FileEntry.Decodes raws files) :
    files.flatMap FileEntry.uriStates = raws.flatMap RawFile.uriStates := by
  induction h with
  | nil => rfl
  | @cons raw f _ _ hf _ ih =>
    have hstates : f.uriStates = raw.uriStates := by
      rw [FileEntry.uriStates, hf.uris, List.map_map]
      rfl
    rw [List.flatMap_cons, List.flatMap_cons, ih, hstates]

theorem mode_torrent {raw : Option RawTorrent} {t : Option Torrent}
    (h : Option.Rel Torrent.Decodes raw t) :
    t.bind Torrent.mode = (raw.bind RawTorrent.mode).map .ofText := by
  cases h with
  | none => rfl
  | some h => exact h.mode

/-- A download that is made notes all of its words that are not known. -/
theorem Download.events_ofRaw {raw : RawDownload} {d : Download} (h : Download.Decodes raw d) :
    (Download.ofRaw raw).events = d.notes := by
  have hfiles : (Traced.forEach FileEntry.ofRaw (raw.files.getD [])).outcome = .ok d.files := by
    rw [Traced.outcome_forEach, mapM_eq_ok_iff]
    exact h.files.imp fun _ _ => FileEntry.ofRaw_eq_ok_iff.2
  have htorrent : (Traced.forSome Torrent.ofRaw raw.bittorrent).outcome = .ok d.torrent := by
    simp only [forSome_eq_ok_iff, Torrent.ofRaw_eq_ok_iff]
    exact h.torrent
  rw [Download.ofRaw, Traced.lift_bind_of_ok h.exitCode, Traced.lift_bind_of_ok h.pieceMap,
    Traced.events_bind_of_ok hfiles, Traced.events_bind_of_ok htorrent, Traced.events_bind_of_ok rfl,
    Traced.lift_bind_of_ok h.totalLength, Traced.lift_bind_of_ok h.completedLength,
    Traced.lift_bind_of_ok h.uploadLength, Traced.lift_bind_of_ok h.downloadSpeed,
    Traced.lift_bind_of_ok h.uploadSpeed, Traced.lift_bind_of_ok h.numSeeders,
    Traced.lift_bind_of_ok h.seeder, Traced.lift_bind_of_ok h.pieceLength,
    Traced.lift_bind_of_ok h.numPieces, Traced.lift_bind_of_ok h.connections,
    Traced.lift_bind_of_ok h.verifiedLength, Traced.lift_bind_of_ok h.verificationPending,
    Traced.events_bind_of_ok rfl, Traced.events_pure, List.append_nil]
  simp only [Download.notes, uriStates_files h.files, mode_torrent h.torrent, h.state,
    events_files h.files, events_torrent h.torrent, List.append_assoc, ← Download.stateWarnings_eq]
  simp only [Traced.note, Download.lengthNotes, Download.exceedsTotal, h.gid]
  rfl

/-- A download that is refused notes its words up to the field that is refused. -/
theorem Download.failsAs_ofRaw (raw : RawDownload) : (Download.ofRaw raw).FailsAs raw.NotedBefore := by
  have hlater : ∀ {k : String}, k ∈ RawDownload.laterFields → ∀ {e : DecodeError},
      e.field? = some k →
      raw.NotedBefore e (uriNotes ((raw.files.getD []).flatMap RawFile.uriStates) ++
        (modeNotes ((raw.bittorrent.bind RawTorrent.mode).map .ofText) ++
          (Download.stateWarnings (.ofText raw.status) ++ []))) := by
    intro k hk e he
    rw [List.append_nil, ← List.append_assoc, Download.stateWarnings_eq]
    exact .later ⟨k, hk, he⟩
  refine .lift (fun e he => .start (.inl (Scalar.exitCode_refused he))) fun exitCode => ?_
  refine .lift (fun e he => .start (.inr (Scalar.pieceMap_refused he))) fun pieceMap => ?_
  refine .bind (failsAs_files raw) fun files hfiles => ?_
  simp only [Traced.outcome_forEach, mapM_eq_ok_iff, FileEntry.ofRaw_eq_ok_iff] at hfiles
  rw [events_files hfiles]
  refine .bind (fun e he => ?_) fun torrent htorrent => ?_
  · obtain ⟨hfield, hnothing⟩ := failsAs_torrent raw.bittorrent e he
    rw [hnothing, List.append_nil]
    exact .creationDate hfield
  simp only [forSome_eq_ok_iff, Torrent.ofRaw_eq_ok_iff] at htorrent
  rw [events_torrent htorrent]
  refine .note ?_
  refine .lift (fun e he => hlater (by decide) (Scalar.counter_refused he)) fun totalLength => ?_
  refine .lift (fun e he => hlater (by decide) (Scalar.counter_refused he)) fun completedLength => ?_
  refine .lift (fun e he => hlater (by decide) (Scalar.counter_refused he)) fun uploadLength => ?_
  refine .lift (fun e he => hlater (by decide) (Scalar.counter_refused he)) fun downloadSpeed => ?_
  refine .lift (fun e he => hlater (by decide) (Scalar.counter_refused he)) fun uploadSpeed => ?_
  refine .lift (fun e he => hlater (by decide) (Scalar.counter_refused he)) fun numSeeders => ?_
  refine .lift (fun e he => hlater (by decide) (Scalar.flag_refused he)) fun seeder => ?_
  refine .lift (fun e he => hlater (by decide) (Scalar.counter_refused he)) fun pieceLength => ?_
  refine .lift (fun e he => hlater (by decide) (Scalar.counter_refused he)) fun numPieces => ?_
  refine .lift (fun e he => hlater (by decide) (Scalar.counter_refused he)) fun connections => ?_
  refine .lift (fun e he => hlater (by decide) (Scalar.counter_refused he)) fun verifiedLength => ?_
  refine .lift (fun e he => hlater (by decide) (Scalar.flag_refused he)) fun pending => ?_
  exact .note (Traced.failsAs_pure _)

/-! ### What is noted of texts -/

/-- What a run notes that begins with some events, finds raw reports, makes downloads of them, and
    closes with some events of what it has made. -/
structure NotesAll {α : Type} (run : Decoding α) (front : List Event)
    (raws : Except DecodeError (List RawDownload)) (downloads : α → List Download)
    (closing : α → List Event) : Prop where
  /-- When all downloads are made, each of them is noted in full. -/
  made : ∀ a, run.outcome = .ok a →
    run.events = front ++ (downloads a).flatMap Download.notes ++ closing a
  /-- When a report is refused, the downloads before it are noted in full, and its words as far as they
      come before the field that is refused. -/
  refused : ∀ rs e, raws = .ok rs → run.outcome = .error e →
    ∃ before raw after ds events, rs = before ++ raw :: after ∧
      List.Forall₂ (fun raw d => (Download.ofRaw raw).outcome = .ok d) before ds ∧
      (Download.ofRaw raw).outcome = .error e ∧ raw.NotedBefore e events ∧
      run.events = front ++ ds.flatMap Download.notes ++ events
  /-- When there are no raw reports, nothing more is noted. -/
  unread : ∀ e, raws = .error e → run.outcome = .error e ∧ run.events = front

/-- Closing events stand behind everything else, and only when all downloads are made. -/
theorem NotesAll.closing {α : Type} {run : Decoding α} {front : List Event}
    {raws : Except DecodeError (List RawDownload)} {downloads : α → List Download}
    (h : NotesAll run front raws downloads fun _ => []) (c : α → List Event) :
    NotesAll (run.closing c) front raws downloads c where
  made a ha := by
    rw [Traced.outcome_closing] at ha
    rw [Traced.events_closing_of_ok ha, h.made a ha, List.append_nil]
  refused rs e hrs he := by
    rw [Traced.outcome_closing] at he
    rw [Traced.events_closing_of_error he]
    exact h.refused rs e hrs he
  unread e he := by
    obtain ⟨houtcome, hevents⟩ := h.unread e he
    rw [Traced.outcome_closing, Traced.events_closing_of_error houtcome]
    exact ⟨houtcome, hevents⟩

end DownloadReport

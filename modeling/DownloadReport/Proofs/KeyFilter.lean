import DownloadReport.Proofs.Readers
import DownloadReport.Proofs.ReportFields

/-! Reports with only some of their keys, as a server sends them when it is asked for these keys alone. A
    report can be cut in two by its keys, at the top or in any record within it, and the decoding is cut
    with it (`decoding_keywise`): the whole is accepted just when both parts are, each part has the
    fields of its keys and zero for the others, and nothing outside of the record is touched. -/

namespace DownloadReport

open Json (Value Outline)
open Fieldwise

/-! ### Records within a report -/

/-- A record within a report: the report itself, a file, an address of a file, the torrent, or what the
    torrent says of itself. -/
inductive Spot where
  | download
  | file (i : Nat)
  | uri (i j : Nat)
  | torrent
  | info

namespace Spot

/-- What may stand around a record in a report. -/
def Context : Spot → (Value → Value) → Prop
  | download, c => c = id
  | file i, c => ∃ files item, Slot Download "files" files ∧ Item i item ∧ c = files ∘ item
  | uri i j, c => ∃ files file uris item, Slot Download "files" files ∧ Item i file ∧
      Slot FileEntry "uris" uris ∧ Item j item ∧ c = files ∘ file ∘ uris ∘ item
  | torrent, c => Slot Download "bittorrent" c
  | info, c => ∃ torrent info, Slot Download "bittorrent" torrent ∧ Slot Torrent "info" info ∧
      c = torrent ∘ info

/-- How the decoding of a report goes with those of the reports that have only some of the keys of a
    record. Outside of the record they are the same. -/
def Joins (keys₁ keys₂ : List String) : Spot → Download → Download → Download → Prop
  | download => Fieldwise.Joins keys₁ keys₂
  | file i => OnField Download.filesField (OnItem i (Fieldwise.Joins keys₁ keys₂))
  | uri i j => OnField Download.filesField
      (OnItem i (OnField FileEntry.urisField (OnItem j (Fieldwise.Joins keys₁ keys₂))))
  | torrent => OnField Download.torrentField (OnSome (Fieldwise.Joins keys₁ keys₂))
  | info => OnField Download.torrentField
      (OnSome (OnField Torrent.infoField (OnSome (Fieldwise.Joins keys₁ keys₂))))

end Spot

/-! ### Cutting a record in two -/

section Within

variable {v v₁ v₂ : Value}

/-- A report can be cut in two where one of its files can. -/
theorem splits_file {i : Nat} {files item : Value → Value} (hfiles : Slot Download "files" files)
    (hitem : Item i item) {R : FileEntry → FileEntry → FileEntry → Prop} (h : Splits Made R v v₁ v₂)
    (hd : (files (item v)).Distinct) (hd₁ : (files (item v₁)).Distinct)
    (hd₂ : (files (item v₂)).Distinct) :
    Splits Made (OnField Download.filesField (OnItem i R)) (files (item v)) (files (item v₁))
      (files (item v₂)) :=
  Splits.field Download.filesField_mem hfiles
    (Splits.item hitem h RecordField.from_optionalItems_iff) hd hd₁ hd₂

/-- A report can be cut in two where its torrent can. -/
theorem splits_torrent {c : Value → Value} (hc : Slot Download "bittorrent" c)
    {R : Torrent → Torrent → Torrent → Prop} (h : Splits Made R v v₁ v₂) (hv : v ≠ .null)
    (hv₁ : v₁ ≠ .null) (hv₂ : v₂ ≠ .null) (hd : (c v).Distinct) (hd₁ : (c v₁).Distinct)
    (hd₂ : (c v₂).Distinct) :
    Splits Made (OnField Download.torrentField (OnSome R)) (c v) (c v₁) (c v₂) :=
  Splits.field Download.torrentField_mem hc (Splits.present h hv hv₁ hv₂) hd hd₁ hd₂

end Within

section Report

variable {ms ms₁ ms₂ : List (String × Value)} {spot : Spot} {c : Value → Value}

theorem nodup_of_distinct (hd : (Value.object ms).Distinct) : (ms.map Prod.fst).Nodup := by
  cases hd with
  | object hkeys _ => exact hkeys

/-- A record within a report can be cut in two by its keys, and the report with it. -/
theorem splits_report (hc : spot.Context c) (hperm : (ms₁ ++ ms₂).Perm ms)
    (hd : (c (.object ms)).Distinct) (hd₁ : (c (.object ms₁)).Distinct)
    (hd₂ : (c (.object ms₂)).Distinct) :
    Splits Made (spot.Joins (ms₁.map Prod.fst) (ms₂.map Prod.fst)) (c (.object ms))
      (c (.object ms₁)) (c (.object ms₂)) := by
  cases spot with
  | download =>
    obtain rfl := hc
    exact splits_object hperm (nodup_of_distinct hd)
  | torrent =>
    have hms := nodup_of_distinct (Slot.distinct hc hd)
    exact splits_torrent hc (splits_object hperm hms) nofun nofun nofun hd hd₁ hd₂
  | info =>
    obtain ⟨torrent, info, htorrent, hinfo, rfl⟩ := hc
    have hms := nodup_of_distinct (hinfo.distinct (htorrent.distinct hd))
    have hinner := Splits.field Torrent.infoField_mem hinfo
      (Splits.present (splits_object hperm hms) nofun nofun nofun)
      (htorrent.distinct hd) (htorrent.distinct hd₁) (htorrent.distinct hd₂)
    exact splits_torrent htorrent hinner (hinfo.ne_null _) (hinfo.ne_null _) (hinfo.ne_null _)
      hd hd₁ hd₂
  | file i =>
    obtain ⟨files, item, hfiles, hitem, rfl⟩ := hc
    have hms := nodup_of_distinct (hitem.distinct (hfiles.distinct hd))
    exact splits_file hfiles hitem (splits_object hperm hms) hd hd₁ hd₂
  | uri i j =>
    obtain ⟨files, file, uris, item, hfiles, hfile, huris, hitem, rfl⟩ := hc
    have hfiled := hfile.distinct (hfiles.distinct hd)
    have hms := nodup_of_distinct (hitem.distinct (huris.distinct hfiled))
    have hinner := Splits.field FileEntry.urisField_mem huris
      (Splits.item hitem (splits_object hperm hms) RecordField.from_items_iff) hfiled
      (hfile.distinct (hfiles.distinct hd₁)) (hfile.distinct (hfiles.distinct hd₂))
    exact splits_file hfiles hfile hinner hd hd₁ hd₂

end Report

/-! ### Answers -/

/-- The keys that make an answer of an object. -/
def answerKeys : List String := ["jsonrpc", "result", "error"]

theorem isReply_eq_false {v : Value} (h : ∀ key ∈ answerKeys, v.member? key = none) :
    isReply v = false := by
  simp only [answerKeys, List.forall_mem_cons] at h
  obtain ⟨hjsonrpc, hresult, herror, _⟩ := h
  simp [isReply, hjsonrpc, hresult, herror]

/-- A member of a part is a member of the whole. -/
theorem member?_first {ms ms₁ ms₂ : List (String × Value)} (hperm : (ms₁ ++ ms₂).Perm ms)
    {key : String} (h : (Value.object ms).member? key = none) :
    (Value.object ms₁).member? key = none := by
  rw [Value.member?, ← Option.not_isSome_iff_eq_none, isSome_findMember] at h ⊢
  refine fun hmem => h ?_
  rw [← (hperm.map Prod.fst).mem_iff, List.map_append]
  exact List.mem_append_left _ hmem

/-- When a report has no key of an answer, it has none with fewer keys. -/
theorem member?_context {spot : Spot} {c : Value → Value} (hc : spot.Context c)
    {ms ms₁ ms₂ : List (String × Value)} (hperm : (ms₁ ++ ms₂).Perm ms) {key : String}
    (hkey : key ∈ answerKeys) (h : (c (.object ms)).member? key = none) :
    (c (.object ms₁)).member? key = none := by
  have hfiles : key ≠ "files" := by rintro rfl; exact absurd hkey (by decide)
  have htorrent : key ≠ "bittorrent" := by rintro rfl; exact absurd hkey (by decide)
  cases spot with
  | download =>
    obtain rfl := hc
    exact member?_first hperm h
  | torrent => exact (Slot.member?_eq hc htorrent _ _).trans h
  | info =>
    obtain ⟨_, _, hc, _, rfl⟩ := hc
    exact (hc.member?_eq htorrent _ _).trans h
  | file i =>
    obtain ⟨_, _, hc, _, rfl⟩ := hc
    exact (hc.member?_eq hfiles _ _).trans h
  | uri i j =>
    obtain ⟨_, _, _, _, hc, _, _, _, rfl⟩ := hc
    exact (hc.member?_eq hfiles _ _).trans h

/-! ### Texts -/

/-- A text of a value, in which no object repeats a key. -/
structure TextOf (text : String) (v : Value) : Prop where
  parse : Value.parse text = .ok v
  distinct : (Outline.of text).root.distinctKeys = true

/-- A whole is accepted just when its parts are, and then the three downloads are related. -/
structure AcceptedInParts (R : Download → Download → Download → Prop)
    (x x₁ x₂ : Except DecodeError Download) : Prop where
  accepted : (∃ d, x = .ok d) ↔ (∃ d, x₁ = .ok d) ∧ ∃ d, x₂ = .ok d
  related : ∀ d d₁ d₂, x = .ok d → x₁ = .ok d₁ → x₂ = .ok d₂ → R d d₁ d₂

/-- Outcomes go together as the values go that they come from. -/
theorem acceptedInParts {R : Download → Download → Download → Prop} {v v₁ v₂ : Value}
    (h : Splits Made R v v₁ v₂) {x x₁ x₂ : Except DecodeError Download}
    (hx : ∀ d, x = .ok d ↔ Made v d) (hx₁ : ∀ d, x₁ = .ok d ↔ Made v₁ d)
    (hx₂ : ∀ d, x₂ = .ok d ↔ Made v₂ d) : AcceptedInParts R x x₁ x₂ := by
  constructor
  · simp only [hx, hx₁, hx₂]
    constructor
    · rintro ⟨d, hd⟩
      obtain ⟨d₁, d₂, hd₁, hd₂, _⟩ := h.split d hd
      exact ⟨⟨d₁, hd₁⟩, d₂, hd₂⟩
    · rintro ⟨⟨d₁, hd₁⟩, d₂, hd₂⟩
      obtain ⟨d, hd, _⟩ := h.join d₁ d₂ hd₁ hd₂
      exact ⟨d, hd⟩
  · intro d d₁ d₂ hd hd₁ hd₂
    obtain ⟨e₁, e₂, he₁, he₂, hR⟩ := h.split d ((hx d).1 hd)
    rw [((hx₁ d₁).1 hd₁).unique he₁, ((hx₂ d₂).1 hd₂).unique he₂]
    exact hR

/-- A report in a text is accepted as the report in its value. -/
theorem outcome_ofJson_eq_ok_iff {text : String} {v : Value} (ht : TextOf text v) (d : Download) :
    (Download.ofJson text).outcome = .ok d ↔ Made v d := by
  have hread := agree_eq_iff.1
    (Json.Shape.readText_agrees Shapes.wellKeyed_rawDownload ht.parse ht.distinct)
  simp only [outcome_ofJson, outcomeOfRaw, bind_eq_ok_iff, mapError_eq_ok_iff,
    Download.ofRaw_eq_ok_iff, hread]
  exact .rfl

theorem outcome_decode_eq_ok_iff {text : String} {v : Value} (ht : TextOf text v)
    (hreply : isReply v = false) (d : Download) : (decode text).outcome = .ok d ↔ Made v d := by
  simp only [decode_of_not_reply ht.parse hreply, outcome_decodeValue, outcomeOfRaw,
    bind_eq_ok_iff, mapError_eq_ok_iff, Download.ofRaw_eq_ok_iff]
  exact .rfl

/-- When the members of a record within a report, or of the report itself, are dealt out to two records,
    the report is accepted just when it is with either of them in its place; and then each field of
    the record is what it is in the part with its key, or zero. Both readers cut reports like this,
    one of them if no key makes an answer of the report. -/
theorem decoding_keywise {spot : Spot} {c : Value → Value} (hc : spot.Context c)
    {ms ms₁ ms₂ : List (String × Value)} (hperm : (ms₁ ++ ms₂).Perm ms) {t t₁ t₂ : String}
    (ht : TextOf t (c (.object ms))) (ht₁ : TextOf t₁ (c (.object ms₁)))
    (ht₂ : TextOf t₂ (c (.object ms₂))) :
    AcceptedInParts (spot.Joins (ms₁.map Prod.fst) (ms₂.map Prod.fst)) (Download.ofJson t).outcome
        (Download.ofJson t₁).outcome (Download.ofJson t₂).outcome ∧
      ((∀ key ∈ answerKeys, (c (.object ms)).member? key = none) →
        AcceptedInParts (spot.Joins (ms₁.map Prod.fst) (ms₂.map Prod.fst)) (decode t).outcome
          (decode t₁).outcome (decode t₂).outcome) := by
  have hsplits := splits_report hc hperm (Value.distinct_of_parse ht.parse ht.distinct)
    (Value.distinct_of_parse ht₁.parse ht₁.distinct)
    (Value.distinct_of_parse ht₂.parse ht₂.distinct)
  constructor
  · exact acceptedInParts hsplits (outcome_ofJson_eq_ok_iff ht) (outcome_ofJson_eq_ok_iff ht₁)
      (outcome_ofJson_eq_ok_iff ht₂)
  · intro hkeys
    have hswap : (ms₂ ++ ms₁).Perm ms := List.perm_append_comm.trans hperm
    have hreply := isReply_eq_false hkeys
    have hreply₁ := isReply_eq_false fun key hkey =>
      member?_context hc hperm hkey (hkeys key hkey)
    have hreply₂ := isReply_eq_false fun key hkey =>
      member?_context hc hswap hkey (hkeys key hkey)
    exact acceptedInParts hsplits (outcome_decode_eq_ok_iff ht hreply)
      (outcome_decode_eq_ok_iff ht₁ hreply₁) (outcome_decode_eq_ok_iff ht₂ hreply₂)

/-- A file that is cut in two, within a report that has only files. -/
theorem decoding_keywise_file :
    (Download.ofJson "\x7b\"files\": [\x7b\"path\": \"p\", \"index\": \"1\"\x7d]\x7d").outcome =
        .ok { files := [{ index := 1, path := "p" }] } ∧
      (Spot.file 0).Joins ["index"] ["path"] { files := [{ index := 1, path := "p" }] }
        { files := [{ index := 1 }] } { files := [{ path := "p" }] } ∧
      AcceptedInParts ((Spot.file 0).Joins ["index"] ["path"])
        (decode "\x7b\"files\": [\x7b\"path\": \"p\", \"index\": \"1\"\x7d]\x7d").outcome
        (decode "\x7b\"files\": [\x7b\"index\": \"1\"\x7d]\x7d").outcome
        (decode "\x7b\"files\": [\x7b\"path\": \"p\"\x7d]\x7d").outcome := by
  have hmade : ∀ {text : String} {v : Value} (raw : RawDownload) {d : Download}, TextOf text v →
      Shapes.rawDownload.readValue v = .ok raw → (Download.ofRaw raw).outcome = .ok d →
      (Download.ofJson text).outcome = .ok d := fun raw _ ht hraw hd =>
    (outcome_ofJson_eq_ok_iff ht _).2 ⟨raw, hraw, Download.ofRaw_eq_ok_iff.1 hd⟩
  have ht : TextOf "\x7b\"files\": [\x7b\"path\": \"p\", \"index\": \"1\"\x7d]\x7d"
      (.object [("files", .array [.object [("index", .string "1"), ("path", .string "p")]])]) :=
    ⟨by cbv, by cbv⟩
  have ht₁ : TextOf "\x7b\"files\": [\x7b\"index\": \"1\"\x7d]\x7d"
      (.object [("files", .array [.object [("index", .string "1")]])]) := ⟨by cbv, by cbv⟩
  have ht₂ : TextOf "\x7b\"files\": [\x7b\"path\": \"p\"\x7d]\x7d"
      (.object [("files", .array [.object [("path", .string "p")]])]) := ⟨by cbv, by cbv⟩
  have hwhole := hmade { files := some [{ index := some "1", path := "p" }] } ht rfl rfl
  have hfirst := hmade { files := some [{ index := some "1" }] } ht₁ rfl rfl
  have hsecond := hmade { files := some [{ path := "p" }] } ht₂ rfl rfl
  have hcontext : (Spot.file 0).Context
      ((fun v => .object ([] ++ ("files", v) :: [])) ∘ fun v => .array ([] ++ v :: [])) :=
    ⟨_, _, .member [] [], .mk [] [] rfl, rfl⟩
  have hcut := @decoding_keywise _ _ hcontext [("index", .string "1"), ("path", .string "p")]
    [("index", .string "1")] [("path", .string "p")] (.refl _) _ _ _ ht ht₁ ht₂
  have hkeys : ∀ key ∈ answerKeys,
      (Value.object [("files", .array [.object [("index", .string "1"), ("path", .string "p")]])]).member?
        key = none := by
    simp only [answerKeys, List.forall_mem_cons]
    exact ⟨rfl, rfl, rfl, List.forall_mem_nil _⟩
  exact ⟨hwhole, hcut.1.related _ _ _ hwhole hfirst hsecond, hcut.2 hkeys⟩

end DownloadReport

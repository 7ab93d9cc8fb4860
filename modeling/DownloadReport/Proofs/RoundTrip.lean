import DownloadReport.Inspection
import DownloadReport.Proofs.Canonical
import DownloadReport.Proofs.Encoding
import DownloadReport.Proofs.Readers

/-! Reports written and read again. A download that is written as text comes back in its canonical form,
    whichever way it is read (`toJson_round_trip`); and what is shown as JSON can be shown as JSON
    again with nothing lost and nothing changed (`render_json_round_trip`), because decoded downloads
    are canonical. -/

namespace DownloadReport

open Json (Value Style Outline)

/-! ### The text of one download -/

theorem takesBack_toValue (room : Nat) (d : Download) :
    Shapes.rawDownload.TakesBack (room + 5) d.toRaw d.toValue :=
  Shapes.takesBack_rawDownload d.toRaw

/-- Sorting the members of a plain value does not make an answer of it, nor unmake one. -/
theorem isReply_sorted {room : Nat} {v : Value} (hv : v.Plain room) :
    isReply v.sorted = isReply v := by
  cases hv with
  | null | bool _ | integer _ _ | string _ | array _ => rfl
  | @object _ ms hkeys _ =>
    rw [Value.sorted, Bool.eq_iff_iff, isReply_object_iff, isReply_object_iff]
    simp only [(Json.keys_sorted_perm hkeys).mem_iff]

/-- A member that may be left out has its own key. -/
theorem mem_optionalMember {α : Type} {key k : String} {toValue : α → Value} {o : Option α}
    {v : Value} : (key, v) ∈ optionalMember k toValue o ↔ key = k ∧ ∃ a ∈ o, v = toValue a := by
  cases o <;> simp [optionalMember]

/-- A written download has an id and none of the members of an answer. -/
theorem isReply_toValue (d : Download) : isReply d.toValue = false := by
  rw [Bool.eq_false_iff, Ne, Download.toValue, RawDownload.toValue, isReply_object_iff]
  simp only [List.map_append, List.mem_append]
  simp [textMember, mem_optionalMember]

theorem isReply_sorted_toValue (d : Download) : isReply d.toValue.sorted = false := by
  rw [isReply_sorted (takesBack_toValue 0 d).plain]
  exact isReply_toValue d

section One

variable (d : Download)

/-- A written download is read as its raw form. -/
theorem readValue_toValue : Shapes.rawDownload.readValue d.toValue.sorted = .ok d.toRaw :=
  (takesBack_toValue 0 d).read

theorem decodeValue_toValue : (decodeValue d.toValue.sorted).outcome = .ok d.canonical := by
  rw [outcome_decodeValue, readValue_toValue]
  exact d.ofRaw_toRaw

theorem readAs_toValue : readAs Shapes.rawDownload d.toValue.sorted = .ok d.toRaw := by
  rw [readAs, readValue_toValue]
  rfl

end One

/-- Raw forms of downloads are decoded to their canonical forms. -/
theorem mapM_ofRaw_toRaw (ds : List Download) :
    (ds.map Download.toRaw).mapM (fun raw => (Download.ofRaw raw).outcome) =
      .ok (ds.map Download.canonical) := by
  rw [mapM_eq_ok_iff, List.forall₂_map_left_iff, List.forall₂_map_right_iff, List.forall₂_same]
  exact fun d _ => d.ofRaw_toRaw

/-- One download that is not in a list is read as a list of it. -/
theorem rawDownloads_toValue (d : Download) : rawDownloads d.toValue.sorted = .ok [d.toRaw] := by
  show (readAs Shapes.rawDownload d.toValue.sorted).map (fun raw => [raw]) = .ok [d.toRaw]
  rw [readAs_toValue]
  rfl

/-- The text of a download has the value as which the download is written. -/
theorem parse_toValue {style : Style} (hstyle : style.IsBlank) (d : Download) :
    Value.parse (String.ofList (d.toValue.write style 0)) = .ok d.toValue.sorted ∧
      (Outline.of (String.ofList (d.toValue.write style 0))).root.distinctKeys = true :=
  Json.parse_write hstyle (takesBack_toValue 122 d).plain

/-- A download that is written as text comes back in its canonical form, which is the download itself
    if no word and no error code in it is kept as unknown although it is known. -/
theorem toJson_round_trip (d : Download) :
    (Download.ofJson d.toJson).outcome = .ok d.canonical ∧
      (decode d.toJson).outcome = .ok d.canonical ∧
      (decodeAll d.toJson).outcome = .ok [d.canonical] ∧
      (d.canonical = d ↔ d.IsCanonical) := by
  obtain ⟨hparse, hdistinct⟩ := parse_toValue Style.isBlank_compact d
  have hreply := isReply_sorted_toValue d
  refine ⟨?_, ?_, ?_, Download.canonical_eq_iff⟩
  · have hread : Shapes.rawDownload.readText d.toJson = .ok d.toRaw :=
      (agree_eq_iff.1 (Json.Shape.readText_agrees Shapes.wellKeyed_rawDownload hparse hdistinct) _).2
        (readValue_toValue d)
    rw [outcome_ofJson, hread]
    exact d.ofRaw_toRaw
  · rw [Download.toJson, Value.compact, decode_of_not_reply hparse hreply]
    exact decodeValue_toValue d
  · rw [Download.toJson, Value.compact, decodeAll_of_not_reply hparse hreply]
    rw [outcome_decodeValues, rawDownloads_toValue, ok_bind]
    exact mapM_ofRaw_toRaw [d]

/-! ### What is shown as JSON -/

/-- Downloads in a list are read item by item. -/
theorem rawDownloads_array (ds : List Download) :
    rawDownloads (Value.array (ds.map Download.toValue)).sorted = .ok (ds.map Download.toRaw) := by
  rw [Value.sorted, Json.sortedItems_eq_map, rawDownloads, mapM_eq_ok_iff, List.map_map,
    List.forall₂_map_left_iff, List.forall₂_map_right_iff, List.forall₂_same]
  exact fun d _ => readAs_toValue d

/-- What is shown of downloads is one download, or a list of downloads. -/
theorem jsonText_cases (ds : List Download) :
    (∃ d, ds = [d] ∧ jsonText ds = d.toValue.indented) ∨
      jsonText ds = (Value.array (ds.map Download.toValue)).indented := by
  rcases ds with _ | ⟨d, _ | ⟨e, es⟩⟩
  · exact .inr rfl
  · exact .inl ⟨d, rfl, rfl⟩
  · exact .inr rfl

/-- What is shown of downloads is read as the downloads in their canonical form, be they one or
    several. -/
theorem decodeAll_jsonText (ds : List Download) :
    (decodeAll (jsonText ds)).outcome = .ok (ds.map Download.canonical) := by
  rcases jsonText_cases ds with ⟨d, rfl, htext⟩ | htext
  · have hparse := (parse_toValue Style.isBlank_indented d).1
    rw [htext, Value.indented, decodeAll_of_not_reply hparse (isReply_sorted_toValue d),
      outcome_decodeValues, rawDownloads_toValue, ok_bind]
    exact mapM_ofRaw_toRaw [d]
  · have hplain : (Value.array (ds.map Download.toValue)).Plain Json.deepest := by
      refine @Value.Plain.array 126 _ fun v hv => ?_
      obtain ⟨d, _, rfl⟩ := List.mem_map.1 hv
      exact (takesBack_toValue 121 d).plain
    have hparse := (Json.parse_write Style.isBlank_indented hplain).1
    rw [htext, Value.indented, decodeAll_of_not_reply hparse rfl, outcome_decodeValues,
      rawDownloads_array, ok_bind]
    exact mapM_ofRaw_toRaw ds

/-- What is decoded is canonical. -/
theorem isCanonical_of_decodeAll {text : String} {ds : List Download}
    (h : (decodeAll text).outcome = .ok ds) : ∀ d ∈ ds, d.IsCanonical := by
  simp only [decodeAll, Traced.outcome_bind, Traced.outcome_lift, Traced.outcome_forEach,
    Traced.outcome_note, Traced.outcome_pure, bind_eq_ok_iff, Except.ok.injEq, mapM_eq_ok_iff] at h
  obtain ⟨_, _, _, _, raws, _, _, hraws, _, _, rfl⟩ := h
  intro d hd
  obtain ⟨raw, _, hraw⟩ := exists_mem_left hraws hd
  exact (Download.ofRaw_eq_ok_iff.1 hraw).isCanonical

/-- Decoded downloads are what is shown. -/
theorem render_json_eq_ok_iff {text shown : String} :
    (render .json text).outcome = .ok shown ↔
      ∃ ds, (decodeAll text).outcome = .ok ds ∧ shown = jsonText ds := by
  have houtcome : (render .json text).outcome =
      (decodeAll text).outcome.mapError InspectError.ofDecodeError >>= fun ds => .ok (jsonText ds) := by
    simp only [render, Traced.outcome_bind, Traced.outcome_note, ok_bind]
    rfl
  simp only [houtcome, bind_eq_ok_iff, mapError_eq_ok_iff, Except.ok.injEq, @eq_comm _ shown]

/-- What is shown of a report as JSON says the same as the report, and is shown as it is. -/
theorem render_json_round_trip {text shown : String} (h : (render .json text).outcome = .ok shown) :
    (∃ ds, (decodeAll text).outcome = .ok ds ∧ (decodeAll shown).outcome = .ok ds) ∧
      (render .json shown).outcome = .ok shown := by
  obtain ⟨ds, hds, rfl⟩ := render_json_eq_ok_iff.1 h
  have hcanonical : ds.map Download.canonical = ds :=
    map_eq_self_iff.2 fun d hd => Download.canonical_eq_iff.2 (isCanonical_of_decodeAll hds d hd)
  have hshown : (decodeAll (jsonText ds)).outcome = .ok ds := by
    rw [decodeAll_jsonText, hcanonical]
  exact ⟨⟨ds, hds, hshown⟩, render_json_eq_ok_iff.2 ⟨ds, hshown, rfl⟩⟩

/-- A list of one in an answer, with a state that is not known and with needless zeros, is shown as the
    download without a list; two downloads, one with an error code that is not known, are shown as a
    list; and none as an empty list. -/
theorem render_json_one_two_none :
    ∃ one first second : Download,
      one = { state := .other "seeding", totalLength := 7 } ∧
      first = { gid := "a", exitCode := .other 99 } ∧
      second = { gid := "b", state := .known .active, seeder := true } ∧
      ((render .json ("\x7b\"result\": " ++
            "[\x7b\"status\": \"seeding\", \"totalLength\": \"007\"\x7d]\x7d")).outcome =
          .ok one.toValue.indented ∧
        (decodeAll one.toValue.indented).outcome = .ok [one] ∧
        (render .json one.toValue.indented).outcome = .ok one.toValue.indented) ∧
      ((render .json ("[\x7b\"gid\": \"a\", \"errorCode\": \"99\"\x7d, " ++
            "\x7b\"seeder\": \"true\", \"status\": \"active\", \"gid\": \"b\"\x7d]")).outcome =
          .ok (Value.array [first.toValue, second.toValue]).indented ∧
        (decodeAll (Value.array [first.toValue, second.toValue]).indented).outcome =
          .ok [first, second] ∧
        (render .json (Value.array [first.toValue, second.toValue]).indented).outcome =
          .ok (Value.array [first.toValue, second.toValue]).indented) ∧
      ((render .json "\x7b\"jsonrpc\": \"2.0\", \"result\": []\x7d").outcome = .ok "[]" ∧
        (decodeAll "[]").outcome = .ok [] ∧ (render .json "[]").outcome = .ok "[]") := by
  have hshown : ∀ {text : String} {ds : List Download}, (decodeAll text).outcome = .ok ds →
      (render .json text).outcome = .ok (jsonText ds) ∧
        (decodeAll (jsonText ds)).outcome = .ok ds ∧
        (render .json (jsonText ds)).outcome = .ok (jsonText ds) := by
    intro text ds hds
    have hfirst := render_json_eq_ok_iff.2 ⟨ds, hds, rfl⟩
    obtain ⟨⟨ds', hds', hagain⟩, hsame⟩ := render_json_round_trip hfirst
    obtain rfl : ds = ds' := Except.ok.inj (hds.symm.trans hds')
    exact ⟨hfirst, hagain, hsame⟩
  have hempty : jsonText [] = "[]" := by cbv
  refine ⟨_, _, _, rfl, rfl, rfl, @hshown _ [_] ?_, @hshown _ [_, _] ?_, hempty ▸ hshown ?_⟩
  all_goals
    rw [decodeAll_eq_bind, report_eq (by cbv)]
    rfl

end DownloadReport

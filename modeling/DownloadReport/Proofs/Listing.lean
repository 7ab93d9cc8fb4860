import DownloadReport.Proofs.Readers

/-! Lists of reports. A list is decoded item by item and in order, and all of it or nothing
    (`decodeAll_elementwise`). It is gone through twice: first every item has to have the shape of a
    report, and only then are the reports decoded, so that an item of another shape counts before a
    report that is refused, wherever the two stand. What is not in a list is decoded as by itself. -/

namespace DownloadReport

open Json (Value)

/-- Whether a value is a report of which a download is made. -/
def MadeOf (v : Value) (d : Download) : Prop :=
  ∃ raw, Shapes.rawDownload.readValue v = .ok raw ∧ (Download.ofRaw raw).outcome = .ok d

/-- A report by itself is decoded as the download that is made of it. -/
theorem decodeValue_eq_ok_iff {v : Value} {d : Download} :
    (decodeValue v).outcome = .ok d ↔ MadeOf v d := by
  rw [outcome_decodeValue, outcomeOfRaw, bind_eq_ok_iff]
  simp only [mapError_eq_ok_iff, MadeOf]

/-- What keeps a list of values from being decoded. -/
inductive ListRefused (items : List Value) : DecodeError → Prop where
  /-- An item that is no report, the first one of that kind. Reports before it may be refused. -/
  | shape {before after : List Value} {v : Value} {e : Json.ReadError}
      (hitems : items = before ++ v :: after)
      (hbefore : ∀ u ∈ before, ∃ raw, Shapes.rawDownload.readValue u = .ok raw)
      (hv : Shapes.rawDownload.readValue v = .error e) : ListRefused items (.json e.message)
  /-- A report that is refused, the first one of that kind, when all items are reports. -/
  | conversion {before after : List Value} {v : Value} {raw : RawDownload} {e : DecodeError}
      (hitems : items = before ++ v :: after)
      (hshape : ∀ u ∈ items, ∃ raw, Shapes.rawDownload.readValue u = .ok raw)
      (hbefore : ∀ u ∈ before, ∃ d, MadeOf u d)
      (hv : Shapes.rawDownload.readValue v = .ok raw)
      (hraw : (Download.ofRaw raw).outcome = .error e) : ListRefused items e

section Items

variable {items : List Value} {raws : List RawDownload}

theorem readAs_eq_ok_iff {v : Value} {raw : RawDownload} :
    readAs Shapes.rawDownload v = .ok raw ↔ Shapes.rawDownload.readValue v = .ok raw :=
  mapError_eq_ok_iff

/-- All items have the shape of a report, and these are the raw reports. -/
theorem rawDownloads_array_eq_ok_iff :
    rawDownloads (.array items) = .ok raws ↔
      List.Forall₂ (fun v raw => Shapes.rawDownload.readValue v = .ok raw) items raws := by
  simp only [rawDownloads, mapM_eq_ok_iff, readAs_eq_ok_iff]

/-- A list is decoded just when each of its items is. -/
theorem decodeValues_array_eq_ok_iff {ds : List Download} :
    (decodeValues (.array items)).outcome = .ok ds ↔ List.Forall₂ MadeOf items ds := by
  simp only [outcome_decodeValues, bind_eq_ok_iff, rawDownloads_array_eq_ok_iff, mapM_eq_ok_iff]
  exact forall₂_comp_iff.symm

/-- The first item that is no report decides. -/
theorem rawDownloads_array_eq_error_iff {e : DecodeError} :
    rawDownloads (.array items) = .error e ↔
      ∃ before v after fault, items = before ++ v :: after ∧
        (∀ u ∈ before, ∃ raw, Shapes.rawDownload.readValue u = .ok raw) ∧
        Shapes.rawDownload.readValue v = .error fault ∧ e = .json fault.message := by
  have hread : ∀ v, readAs Shapes.rawDownload v = .error e ↔
      ∃ fault, Shapes.rawDownload.readValue v = .error fault ∧ e = .json fault.message :=
    fun v => mapError_eq_error_iff
  simp only [rawDownloads, mapM_eq_error_iff, hread, readAs_eq_ok_iff]
  constructor
  · rintro ⟨before, v, after, hitems, hbefore, fault, hv, he⟩
    exact ⟨before, v, after, fault, hitems, hbefore, hv, he⟩
  · rintro ⟨before, v, after, fault, hitems, hbefore, hv, he⟩
    exact ⟨before, v, after, hitems, hbefore, fault, hv, he⟩

/-- A list fails at its first item of another shape, or else at the first report that is refused. -/
theorem decodeValues_array_eq_error_iff {e : DecodeError} :
    (decodeValues (.array items)).outcome = .error e ↔ ListRefused items e := by
  simp only [outcome_decodeValues, bind_eq_error_iff, rawDownloads_array_eq_error_iff,
    rawDownloads_array_eq_ok_iff, mapM_eq_error_iff]
  constructor
  · rintro (⟨before, v, after, fault, hitems, hbefore, hv, rfl⟩ | ⟨raws, hraws, hrefused⟩)
    · exact .shape hitems hbefore hv
    · obtain ⟨rawsBefore, raw, rawsAfter, rfl, hok, hraw⟩ := hrefused
      have hshape : ∀ u ∈ items, ∃ raw, Shapes.rawDownload.readValue u = .ok raw := by
        intro u hu
        obtain ⟨raw, _, hread⟩ := exists_mem_right hraws hu
        exact ⟨raw, hread⟩
      -- The items are split where the raw reports are.
      obtain ⟨before, v, after, rfl, hbefore, hv, _⟩ := forall₂_split hraws.flip
      refine .conversion rfl hshape ?_ hv hraw
      intro u hu
      obtain ⟨rawBefore, hmem, hread⟩ := exists_mem_left hbefore hu
      obtain ⟨d, hd⟩ := hok rawBefore hmem
      exact ⟨d, rawBefore, hread, hd⟩
  · rintro (⟨hitems, hbefore, hv⟩ | ⟨rfl, hshape, hbefore, hv, hraw⟩)
    · exact .inl ⟨_, _, _, _, hitems, hbefore, hv, rfl⟩
    · obtain ⟨raws, hraws⟩ := exists_forall₂ hshape
      obtain ⟨rawsBefore, raw', rawsAfter, rfl, hreads, hv', _⟩ := forall₂_split hraws
      obtain rfl : raw' = _ := Except.ok.inj (hv'.symm.trans hv)
      refine .inr ⟨_, hraws, rawsBefore, raw', rawsAfter, rfl, ?_, hraw⟩
      intro rawBefore hmem
      obtain ⟨u, hu, hread⟩ := exists_mem_left hreads hmem
      obtain ⟨d, raw, hraw, hd⟩ := hbefore u hu
      obtain rfl : raw = rawBefore := Except.ok.inj (hraw.symm.trans hread)
      exact ⟨d, hd⟩

end Items

/-- What is not in a list is one raw report. -/
theorem rawDownloads_single {v : Value} (h : ∀ items, v ≠ .array items) :
    rawDownloads v = (readAs Shapes.rawDownload v).map fun raw => [raw] := by
  cases v with
  | array items => exact absurd rfl (h items)
  | null | bool _ | number _ | string _ | object _ => rfl

/-- What is not in a list is decoded as by itself. -/
theorem decodeValues_single {v : Value} (h : ∀ items, v ≠ .array items) :
    (decodeValues v).outcome = (decodeValue v).outcome.map fun d => [d] := by
  rw [outcome_decodeValues, outcome_decodeValue, rawDownloads_single h, readAs, outcomeOfRaw]
  cases Shapes.rawDownload.readValue v with
  | error e => rfl
  | ok raw =>
    show [raw].mapM (fun raw => (Download.ofRaw raw).outcome) =
      (Download.ofRaw raw).outcome.map fun d => [d]
    rw [List.mapM_cons, List.mapM_nil]
    cases (Download.ofRaw raw).outcome <;> rfl

/-- A list of reports is decoded just when each of its items is, as the downloads made of the items in
    their order; otherwise the first item of another shape counts, or else the first report that is
    refused. Where no list stands, one report is decoded as a list of itself, and what keeps it from
    being decoded is the same. -/
theorem decodeAll_elementwise (text : String) :
    (∀ items, (report text).outcome = .ok (.array items) →
      (∀ ds, (decodeAll text).outcome = .ok ds ↔ List.Forall₂ MadeOf items ds) ∧
        ∀ e, (decodeAll text).outcome = .error e ↔ ListRefused items e) ∧
      ((∀ items, (report text).outcome ≠ .ok (.array items)) →
        (decodeAll text).outcome = (decode text).outcome.map fun d => [d]) := by
  rw [decodeAll_eq_bind, decode_eq_bind, Traced.outcome_bind, Traced.outcome_bind]
  constructor
  · intro items hreport
    rw [hreport, ok_bind]
    exact ⟨fun ds => decodeValues_array_eq_ok_iff, fun e => decodeValues_array_eq_error_iff⟩
  · intro hreport
    cases hv : (report text).outcome with
    | error e => rfl
    | ok v =>
      refine decodeValues_single fun items hitems => hreport items ?_
      rw [hv, hitems]

/-- An item that is no report counts, although a report before it is refused; a list within an answer is
    decoded item by item; and a report that is not in a list is decoded as a list of itself. -/
theorem decodeAll_shape_first :
    ((report "[\x7b\x7d, \x7b\"numPieces\": \"x\"\x7d, 3]").outcome =
        .ok (.array [.object [], .object [("numPieces", .string "x")],
          .number (.integer 3 (by decide))]) ∧
      (decodeAll "[\x7b\x7d, \x7b\"numPieces\": \"x\"\x7d, 3]").outcome =
        .error (.json "invalid type: integer `3`, expected struct StatusWire")) ∧
      ((report "\x7b\"result\": [\x7b\"numPieces\": \"02\"\x7d, \x7b\x7d]\x7d").outcome =
          .ok (.array [.object [("numPieces", .string "02")], .object []]) ∧
        (decodeAll "\x7b\"result\": [\x7b\"numPieces\": \"02\"\x7d, \x7b\x7d]\x7d").outcome =
          .ok [{ numPieces := 2 }, {}]) ∧
      (report "\x7b\"gid\": \"g\"\x7d").outcome = .ok (.object [("gid", .string "g")]) ∧
      (decodeAll "\x7b\"gid\": \"g\"\x7d").outcome =
        (decode "\x7b\"gid\": \"g\"\x7d").outcome.map fun d => [d] := by
  have hlist : (report "[\x7b\x7d, \x7b\"numPieces\": \"x\"\x7d, 3]").outcome =
      .ok (.array [.object [], .object [("numPieces", .string "x")],
        .number (.integer 3 (by decide))]) := by
    rw [report_eq (Value.parse_of_outline (Json.Outline.of_eq (by cbv) (by rfl)) (by rfl))]
    rfl
  have hbefore : ∀ u ∈ [Value.object [], .object [("numPieces", .string "x")]],
      ∃ raw, Shapes.rawDownload.readValue u = .ok raw := by
    simp only [List.forall_mem_cons, List.not_mem_nil, false_implies, implies_true, and_true]
    exact ⟨⟨{}, rfl⟩, ⟨{ numPieces := some "x" }, rfl⟩⟩
  have hthree : Shapes.rawDownload.readValue (.number (.integer 3 (by decide))) =
      .error (.wrongKind (.number (.integer 3 (by decide))) (.record "StatusWire")) := rfl
  have hrefused := @ListRefused.shape _ _ [] _ _ rfl hbefore hthree
  have hanswer :
      (report "\x7b\"result\": [\x7b\"numPieces\": \"02\"\x7d, \x7b\x7d]\x7d").outcome =
        .ok (.array [.object [("numPieces", .string "02")], .object []]) := by
    rw [report_eq (by cbv)]
    rfl
  have htwo : MadeOf (.object [("numPieces", .string "02")]) { numPieces := 2 } :=
    ⟨{ numPieces := some "02" }, rfl, rfl⟩
  have hbare : MadeOf (.object []) {} := ⟨{}, rfl, rfl⟩
  have hone : (report "\x7b\"gid\": \"g\"\x7d").outcome = .ok (.object [("gid", .string "g")]) := by
    rw [report_eq (by cbv)]
    rfl
  have hsingle : ∀ items, (report "\x7b\"gid\": \"g\"\x7d").outcome ≠ .ok (.array items) := by
    intro items hitems
    rw [hone] at hitems
    cases hitems
  exact ⟨⟨hlist, (((decodeAll_elementwise _).1 _ hlist).2 _).2 hrefused⟩,
    ⟨hanswer, (((decodeAll_elementwise _).1 _ hanswer).1 _).2 (.cons htwo (.cons hbare .nil))⟩, hone,
    (decodeAll_elementwise _).2 hsingle⟩

end DownloadReport

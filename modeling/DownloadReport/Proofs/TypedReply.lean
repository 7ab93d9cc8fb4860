import DownloadReport.Proofs.Agreement
import DownloadReport.Proofs.KeyOrder
import DownloadReport.Proofs.Listing
import DownloadReport.Proofs.ReportFields

/-! Answers read with the type of their result. One reader of an answer takes the result for what it
    should be while it walks through the text; the other takes it as it comes, and the report is
    decoded afterwards. An answer that the first one reads has the same outcome for both, and what
    the second one decodes is read by the first (`typed_reply_agrees`). They differ only where an
    error of the server stands beside a result that is no report. -/

namespace DownloadReport

open Json (Value Shape Fields FieldReads Outline)

/-! ### The parts of an answer -/

/-- The parts of an answer as its members have them. -/
structure Reply.OfMembers {α : Type} (s : Shape α) (ms : List (String × Value)) (r : Reply α) :
    Prop where
  version : FieldReads ms "jsonrpc" .string (some "") r.version
  id : FieldReads ms "id" .anything (some .null) r.id
  result : FieldReads ms "result" (.nullable s) (some none) r.result
  error : FieldReads ms "error" (.nullable Shapes.serverError) (some none) r.error

/-- An answer is read just when its parts can be had one by one. -/
theorem readValue_reply_iff {α : Type} {s : Shape α} (hs : s.WellKeyed)
    {ms : List (String × Value)} (hkeys : (ms.map Prod.fst).Nodup) {r : Reply α} :
    (Shapes.reply s).readValue (.object ms) = .ok r ↔ r.OfMembers s ms := by
  refine (Json.readMembers_eq_ok_iff (Shapes.wellKeyed_reply hs) hkeys fun _ _ => rfl).trans ?_
  constructor
  · rintro ⟨_, error, ⟨_, result, ⟨_, id, ⟨_, version, rfl, rfl, hversion⟩, rfl, hid⟩, rfl, hresult⟩,
      rfl, herror⟩
    exact ⟨hversion, hid, hresult, herror⟩
  · intro h
    exact ⟨_, r.error, ⟨_, r.result, ⟨_, r.id, ⟨_, r.version, rfl, rfl, h.version⟩, rfl, h.id⟩, rfl,
      h.result⟩, rfl, h.error⟩

/-- The result of an answer that is taken as it comes is a member that is not null. -/
theorem Reply.OfMembers.result_mem {ms : List (String × Value)} {raw : Reply Value}
    (h : raw.OfMembers .anything ms) {result : Value} (hsome : raw.result = some result) :
    ("result", result) ∈ ms ∧ result ≠ .null := by
  have hfield := h.result
  rw [hsome] at hfield
  rcases hfield with ⟨x, hx, hread⟩ | ⟨_, hnone⟩
  · rcases Json.read_nullable_iff.1 hread with ⟨_, hnone⟩ | ⟨hnull, y, hy, hxy⟩
    · exact nomatch hnone
    · cases hy
      cases hxy
      exact ⟨hx, hnull⟩
  · exact nomatch hnone

/-- An answer whose result was read, beside the same answer with its result as it came. -/
structure Reply.Reads {α : Type} (s : Shape α) (raw : Reply Value) (r : Reply α) : Prop where
  version : raw.version = r.version
  id : raw.id = r.id
  result : Option.Rel (fun v a => s.readValue v = .ok a) raw.result r.result
  error : raw.error = r.error

/-- An answer is read when it is one with whatever result, and the result can be read. -/
theorem readValue_reply_iff_reads {α : Type} {s : Shape α} (hs : s.WellKeyed)
    {ms : List (String × Value)} (hkeys : (ms.map Prod.fst).Nodup) {r : Reply α} :
    (Shapes.reply s).readValue (.object ms) = .ok r ↔
      ∃ raw, (Shapes.reply .anything).readValue (.object ms) = .ok raw ∧ Reply.Reads s raw r := by
  have hanything : (Shape.anything).WellKeyed := trivial
  constructor
  · intro h
    obtain ⟨hversion, hid, hresult, herror⟩ := (readValue_reply_iff hs hkeys).1 h
    obtain ⟨result, hraw, hrel⟩ := Json.fieldReads_nullable_iff.1 hresult
    exact ⟨⟨r.version, r.id, result, r.error⟩,
      (readValue_reply_iff hanything hkeys).2 ⟨hversion, hid, hraw, herror⟩, rfl, rfl, hrel, rfl⟩
  · rintro ⟨raw, hraw, hversion, hid, hrel, herror⟩
    obtain ⟨hrawVersion, hrawId, hrawResult, hrawError⟩ :=
      (readValue_reply_iff hanything hkeys).1 hraw
    refine (readValue_reply_iff hs hkeys).2 ⟨?_, ?_, ?_, ?_⟩
    · rw [← hversion]
      exact hrawVersion
    · rw [← hid]
      exact hrawId
    · exact Json.fieldReads_nullable_iff.2 ⟨raw.result, hrawResult, hrel⟩
    · rw [← herror]
      exact hrawError

/-- Both answers have the same error, or the one has what was read of the result of the other. -/
theorem Reply.Reads.outcome {α : Type} {s : Shape α} {raw : Reply Value} {r : Reply α}
    (h : Reply.Reads s raw r) :
    (∃ e, raw.outcome = .error e ∧ r.outcome = .error e) ∨
      ∃ v a, raw.error = none ∧ raw.result = some v ∧ s.readValue v = .ok a ∧
        raw.outcome = .ok v ∧ r.outcome = .ok a := by
  obtain ⟨hversion, hid, hresult, herror⟩ := h
  obtain ⟨version, id, result, error⟩ := raw
  obtain ⟨_, _, result', error'⟩ := r
  obtain rfl : error = error' := herror
  cases error with
  | some e => exact .inl ⟨_, rfl, rfl⟩
  | none =>
    dsimp only at hresult
    cases hresult with
    | none => exact .inl ⟨_, rfl, rfl⟩
    | some hread => exact .inr ⟨_, _, rfl, rfl, hread, rfl, rfl⟩

theorem Reply.outcome_eq_ok_iff {α : Type} {r : Reply α} {a : α} :
    r.outcome = .ok a ↔ r.error = none ∧ r.result = some a := by
  obtain ⟨_, _, result, error⟩ := r
  cases error <;> cases result <;> simp [Reply.outcome]

/-! ### The two readers -/

/-- Reading the answer in a text with its result as a shape says agrees with an outcome: what is read
    has this outcome, and if the outcome is a result, the answer is read with this result. -/
def AgreesTyped {α : Type} (s : Shape α) (text : String) (outcome : Except DecodeError α) : Prop :=
  (∀ r, (Shapes.reply s).readText text = .ok r → outcome = r.outcome) ∧
    ∀ a, outcome = .ok a → ∃ r, (Shapes.reply s).readText text = .ok r ∧ r.outcome = .ok a

/-- Nothing but an object is an answer. -/
theorem exists_object_of_isReply {v : Value} (h : isReply v = true) : ∃ ms, v = .object ms := by
  cases v with
  | object ms => exact ⟨ms, rfl⟩
  | null | bool _ | number _ | string _ | array _ => exact nomatch h

/-- The report in an answer is its result. -/
theorem outcome_payload_of_isReply {v : Value} (hreply : isReply v = true) :
    (payload v).outcome = readAs (Shapes.reply .anything) v >>= Reply.outcome := by
  rw [payload, hreply]
  simp only [if_true, Traced.outcome_bind, Traced.outcome_lift, Traced.outcome_note, ok_bind]

/-- What is decoded of an answer is its result. -/
theorem outcome_decodeWith_of_isReply {α : Type} (next : Value → Decoding α) {text : String}
    {v : Value} (hparse : Value.parse text = .ok v) (hreply : isReply v = true) :
    (decodeWith next text).outcome =
      readAs (Shapes.reply .anything) v >>= fun raw => raw.outcome >>= fun v => (next v).outcome := by
  have hparsed : parse text = .ok v := mapError_eq_ok_iff.2 hparse
  rw [decodeWith]
  simp only [Traced.outcome_bind, Traced.outcome_lift, hparsed, ok_bind,
    outcome_payload_of_isReply hreply, bind_assoc]

/-- The report in a text is the value of the text, or the result of the answer that it is. -/
theorem report_eq_ok {text : String} {w : Value} (h : (report text).outcome = .ok w) :
    ∃ v, Value.parse text = .ok v ∧
      (w = v ∨ ∃ ms, v = .object ms ∧ ("result", w) ∈ ms ∧ w ≠ .null) := by
  rw [report, Traced.outcome_bind, Traced.outcome_lift] at h
  obtain ⟨v, hparse, hpayload⟩ := bind_eq_ok_iff.1 h
  have hparse : Value.parse text = .ok v := mapError_eq_ok_iff.1 hparse
  refine ⟨v, hparse, ?_⟩
  by_cases hreply : isReply v = true
  · obtain ⟨ms, rfl⟩ := exists_object_of_isReply hreply
    rw [outcome_payload_of_isReply hreply] at hpayload
    obtain ⟨raw, hraw, houtcome⟩ := bind_eq_ok_iff.1 hpayload
    have hkeys := Json.nodup_of_value (Json.Value.parse_eq_ok_iff.1 hparse).1
    have hmembers := (readValue_reply_iff (s := .anything) trivial hkeys).1
      (mapError_eq_ok_iff.1 hraw)
    exact .inr ⟨ms, rfl, hmembers.result_mem (Reply.outcome_eq_ok_iff.1 houtcome).2⟩
  · rw [payload_of_not_reply (by simpa using hreply)] at hpayload
    exact .inl (Except.ok.inj hpayload).symm

section Text

variable {α : Type} {s : Shape α} {next : Value → Decoding α} {text : String} {v : Value}

/-- When a result that is not null is read as it is decoded, the answer around it is, too. -/
theorem agreesTyped_decodeWith (hs : s.WellKeyed) (hparse : Value.parse text = .ok v)
    (hdistinct : (Outline.of text).root.distinctKeys = true) (hreply : isReply v = true)
    (hnext : ∀ result, v.member? "result" = some result → result ≠ .null →
      ∀ a, s.readValue result = .ok a ↔ (next result).outcome = .ok a) :
    AgreesTyped s text (decodeWith next text).outcome := by
  obtain ⟨ms, rfl⟩ := exists_object_of_isReply hreply
  have hkeys : (ms.map Prod.fst).Nodup := by
    cases Value.distinct_of_parse hparse hdistinct with
    | object hkeys _ => exact hkeys
  have htext : ∀ r, (Shapes.reply s).readText text = .ok r ↔
      ∃ raw, (Shapes.reply .anything).readValue (.object ms) = .ok raw ∧ Reply.Reads s raw r := by
    intro r
    rw [← readValue_reply_iff_reads hs hkeys]
    exact agree_eq_iff.1
      (Json.Shape.readText_agrees (Shapes.wellKeyed_reply hs) hparse hdistinct) r
  have hresult : ∀ {raw : Reply Value} {result : Value},
      (Shapes.reply .anything).readValue (.object ms) = .ok raw → raw.result = some result →
      ∀ a, s.readValue result = .ok a ↔ (next result).outcome = .ok a := by
    intro raw result hraw hsome
    obtain ⟨hmem, hnull⟩ :=
      ((readValue_reply_iff (s := .anything) trivial hkeys).1 hraw).result_mem hsome
    exact hnext _ ((findMember_eq_some_iff hkeys).2 hmem) hnull
  rw [AgreesTyped, outcome_decodeWith_of_isReply next hparse hreply]
  constructor
  · intro r hr
    obtain ⟨raw, hraw, hreads⟩ := (htext r).1 hr
    rw [readAs, hraw]
    show (raw.outcome >>= fun v => (next v).outcome) = r.outcome
    rcases hreads.outcome with ⟨e, he, hr⟩ | ⟨result, a, _, hsome, hread, hok, hr⟩
    · rw [he, hr]
      rfl
    · rw [hok, hr, ok_bind]
      exact (hresult hraw hsome a).1 hread
  · intro a ha
    obtain ⟨raw, hraw, hrest⟩ := bind_eq_ok_iff.1 ha
    obtain ⟨result, hok, hdecoded⟩ := bind_eq_ok_iff.1 hrest
    obtain ⟨herror, hsome⟩ := Reply.outcome_eq_ok_iff.1 hok
    have hraw := mapError_eq_ok_iff.1 hraw
    have hread := (hresult hraw hsome a).2 hdecoded
    refine ⟨⟨raw.version, raw.id, some a, none⟩, (htext _).2 ⟨raw, hraw, rfl, rfl, ?_, herror⟩, rfl⟩
    rw [hsome]
    exact .some hread

end Text

/-! ### Reports and lists of reports -/

/-- A report is read together with its decoding when a download is made of it. -/
theorem readValue_download_iff {v : Value} {d : Download} :
    Shapes.download.readValue v = .ok d ↔ MadeOf v d := by
  refine Json.read_refine_iff.trans ?_
  simp only [mapError_eq_ok_iff]
  exact .rfl

/-- A download is made of a report when it is made field by field. -/
theorem madeOf_iff {v : Value} {d : Download} : MadeOf v d ↔ Fieldwise.Made v d := by
  simp only [MadeOf, Download.ofRaw_eq_ok_iff]
  exact .rfl

/-- A list of reports is read together with their decoding when it is decoded item by item. -/
theorem readValue_downloads_iff {items : List Value} {ds : List Download} :
    (Shape.list Shapes.download).readValue (.array items) = .ok ds ↔
      List.Forall₂ MadeOf items ds := by
  refine Json.read_list_iff.trans ?_
  constructor
  · rintro ⟨_, ⟨⟩, h⟩
    exact h.imp fun v d => readValue_download_iff.1
  · intro h
    exact ⟨items, rfl, h.imp fun v d => readValue_download_iff.2⟩

/-- Reading an answer with its result typed as a download agrees with decoding one report, and with its
    result typed as a list of downloads it agrees with decoding a list, if the result is one. -/
theorem typed_reply_agrees {text : String} {v : Value} (hparse : Value.parse text = .ok v)
    (hdistinct : (Outline.of text).root.distinctKeys = true) (hreply : isReply v = true) :
    AgreesTyped Shapes.download text (decode text).outcome ∧
      ((∀ result, v.member? "result" = some result →
          result = .null ∨ ∃ items, result = .array items) →
        AgreesTyped (.list Shapes.download) text (decodeAll text).outcome) := by
  constructor
  · refine @agreesTyped_decodeWith _ _ decodeValue _ _ Shapes.wellKeyed_download hparse hdistinct
      hreply fun result _ _ d => ?_
    rw [readValue_download_iff, decodeValue_eq_ok_iff]
  · intro hlist
    refine @agreesTyped_decodeWith _ _ decodeValues _ _ Shapes.wellKeyed_download hparse hdistinct
      hreply fun result hresult hnull ds => ?_
    rcases hlist result hresult with rfl | ⟨items, rfl⟩
    · exact absurd rfl hnull
    · rw [readValue_downloads_iff, decodeValues_array_eq_ok_iff]

/-- An answer with a list of one report in it. -/
theorem typed_reply_one_report :
    Value.parse "\x7b\"result\": [\x7b\"gid\": \"g\"\x7d], \"id\": 1\x7d" =
        .ok (.object [("id", .number (.integer 1 (by decide))),
          ("result", .array [.object [("gid", .string "g")]])]) ∧
      AgreesTyped Shapes.download "\x7b\"result\": [\x7b\"gid\": \"g\"\x7d], \"id\": 1\x7d"
        (decode "\x7b\"result\": [\x7b\"gid\": \"g\"\x7d], \"id\": 1\x7d").outcome ∧
      ∃ r, (Shapes.reply (.list Shapes.download)).readText
          "\x7b\"result\": [\x7b\"gid\": \"g\"\x7d], \"id\": 1\x7d" = .ok r ∧
        r.outcome = .ok [{ gid := "g" }] := by
  obtain ⟨n, houtline, hvalue, hdistinct⟩ : ∃ n,
      Outline.of "\x7b\"result\": [\x7b\"gid\": \"g\"\x7d], \"id\": 1\x7d" = ⟨n, false⟩ ∧
        n.value Json.deepest = .ok (.object [("id", .number (.integer 1 (by decide))),
          ("result", .array [.object [("gid", .string "g")]])]) ∧ n.distinctKeys = true :=
    ⟨_, Outline.of_eq (by cbv) (by rfl), by rfl, by rfl⟩
  have hparse := Value.parse_of_outline houtline hvalue
  have hagrees := typed_reply_agrees hparse (houtline ▸ hdistinct) rfl
  have hlist : ∀ result, (Value.object [("id", .number (.integer 1 (by decide))),
      ("result", .array [.object [("gid", .string "g")]])]).member? "result" = some result →
      result = .null ∨ ∃ items, result = .array items := by
    intro result hresult
    obtain rfl : Value.array [.object [("gid", .string "g")]] = result := Option.some.inj hresult
    exact .inr ⟨_, rfl⟩
  have hall : (decodeAll "\x7b\"result\": [\x7b\"gid\": \"g\"\x7d], \"id\": 1\x7d").outcome =
      .ok [{ gid := "g" }] := by
    rw [decodeAll_eq_bind, report_eq hparse]
    rfl
  exact ⟨hparse, hagrees.1, (hagrees.2 hlist).2 _ hall⟩

end DownloadReport

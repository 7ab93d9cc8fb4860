import DownloadReport.Inspection
import DownloadReport.Proofs.Events
import DownloadReport.Proofs.KeyOrder
import DownloadReport.Proofs.TypedReply

/-! How showing a report fails. Nothing but decoding can fail, so both formats fail alike. An error of
    the server is told from a bad report: it is one just when the text is an answer that can be read
    and its error is not null, whatever its result is (`ErrorAnswer`); everything else that goes wrong
    is the report's fault (`render_failures`). -/

namespace DownloadReport

open Json (Value)

/-- A text is an answer that can be read, with an error `x` of the server. Nothing is said of its
    result. -/
def ErrorAnswer (text : String) (x : Value) : Prop :=
  ∃ v r, Value.parse text = .ok v ∧ isReply v = true ∧
    (Shapes.reply .anything).readValue v = .ok r ∧ v.member? "error" = some x ∧ x ≠ .null

/-! ### Faults of the report -/

theorem isPayloadError_of_field {e : DecodeError} {key : String} (h : e.field? = some key) :
    e.isPayloadError = true := by
  cases e with
  | server _ _ => exact nomatch h
  | malformedNumber _ _ | typeMismatch _ _ | unknownWord _ _ | json _ => rfl

/-- What is refused of a raw report is a field. -/
theorem isPayloadError_of_ofRaw {raw : RawDownload} {e : DecodeError}
    (h : (Download.ofRaw raw).outcome = .error e) : e.isPayloadError = true := by
  have hnoted := Download.failsAs_ofRaw raw e h
  generalize (Download.ofRaw raw).events = events at hnoted
  cases hnoted with
  | start hfield => rcases hfield with hfield | hfield <;> exact isPayloadError_of_field hfield
  | creationDate hfield => exact isPayloadError_of_field hfield
  | file hfield _ _ _ | later hfield =>
    obtain ⟨_, _, hfield⟩ := hfield
    exact isPayloadError_of_field hfield

theorem isPayloadError_of_readAs {α : Type} {s : Json.Shape α} {v : Value} {e : DecodeError}
    (h : readAs s v = .error e) : e.isPayloadError = true := by
  obtain ⟨_, _, rfl⟩ := mapError_eq_error_iff.1 h
  rfl

theorem isPayloadError_of_rawDownloads {v : Value} {e : DecodeError}
    (h : rawDownloads v = .error e) : e.isPayloadError = true := by
  by_cases hlist : ∃ items, v = .array items
  · obtain ⟨items, rfl⟩ := hlist
    obtain ⟨_, _, _, _, _, hread⟩ := mapM_eq_error_iff.1 h
    exact isPayloadError_of_readAs hread
  · rw [rawDownloads_single (not_exists.1 hlist)] at h
    exact isPayloadError_of_readAs (map_eq_error_iff.1 h)

/-- What is refused of reports that were found is never the server's error. -/
theorem isPayloadError_of_decodeValues {v : Value} {e : DecodeError}
    (h : (decodeValues v).outcome = .error e) : e.isPayloadError = true := by
  rw [outcome_decodeValues] at h
  rcases bind_eq_error_iff.1 h with hraws | ⟨raws, _, hraws⟩
  · exact isPayloadError_of_rawDownloads hraws
  · obtain ⟨_, _, _, _, _, hraw⟩ := mapM_eq_error_iff.1 hraws
    exact isPayloadError_of_ofRaw hraw

/-! ### Errors of the server -/

section Reply

variable {ms : List (String × Value)} {r : Reply Value}

/-- The error of an answer is what is read of its member, unless that is null. -/
theorem error_of_member (hkeys : (ms.map Prod.fst).Nodup)
    (hread : (Shapes.reply .anything).readValue (.object ms) = .ok r) {x : Value}
    (hx : (Value.object ms).member? "error" = some x) (hnull : x ≠ .null) :
    ∃ s, Shapes.serverError.readValue x = .ok s ∧ r.error = some s := by
  have hanything : (Json.Shape.anything).WellKeyed := trivial
  rcases ((readValue_reply_iff hanything hkeys).1 hread).error with
    ⟨y, hy, hfield⟩ | ⟨habsent, _⟩
  · have hfound : Json.findMember "error" ms = some y := (findMember_eq_some_iff hkeys).2 hy
    obtain rfl : y = x := Option.some.inj (hfound.symm.trans hx)
    rcases Json.read_nullable_iff.1 hfield with ⟨hy, _⟩ | ⟨_, s, hs, herror⟩
    · exact absurd hy hnull
    · exact ⟨s, hs, herror⟩
  · exact absurd (List.mem_map.2 ⟨_, (findMember_eq_some_iff hkeys).1 hx, rfl⟩) habsent

/-- An answer with an error has a member for it. -/
theorem member_of_error (hkeys : (ms.map Prod.fst).Nodup)
    (hread : (Shapes.reply .anything).readValue (.object ms) = .ok r) {s : ServerError}
    (herror : r.error = some s) :
    ∃ x, (Value.object ms).member? "error" = some x ∧ x ≠ .null := by
  have hanything : (Json.Shape.anything).WellKeyed := trivial
  have hfield := ((readValue_reply_iff hanything hkeys).1 hread).error
  rw [herror] at hfield
  rcases hfield with ⟨x, hx, hread⟩ | ⟨_, hnone⟩
  · rcases Json.read_nullable_iff.1 hread with ⟨_, hnone⟩ | ⟨hnull, _, _, _⟩
    · exact nomatch hnone
    · exact ⟨x, (findMember_eq_some_iff hkeys).2 hx, hnull⟩
  · exact nomatch hnone

end Reply

section Text

variable {text : String} {v x : Value}

/-- An answer that was read from a text is an object, and its keys are distinct. -/
theorem exists_object_of_parse (hparse : Value.parse text = .ok v) (hreply : isReply v = true) :
    ∃ ms, v = .object ms ∧ (ms.map Prod.fst).Nodup := by
  obtain ⟨ms, rfl⟩ := exists_object_of_isReply hreply
  exact ⟨ms, rfl, Json.nodup_of_value (Json.Value.parse_eq_ok_iff.1 hparse).1⟩

/-- An error of the server is what comes of its answer, whatever the result is. -/
theorem ErrorAnswer.decodeAll (h : ErrorAnswer text x) :
    ∃ s, Shapes.serverError.readValue x = .ok s ∧
      (decodeAll text).outcome = .error (.server s.code s.message) := by
  obtain ⟨v, r, hparse, hreply, hread, hx, hnull⟩ := h
  obtain ⟨ms, rfl, hkeys⟩ := exists_object_of_parse hparse hreply
  obtain ⟨s, hs, herror⟩ := error_of_member hkeys hread hx hnull
  refine ⟨s, hs, (outcome_decodeWith_of_isReply decodeValues hparse hreply).trans ?_⟩
  have houtcome : r.outcome = .error (.server s.code s.message) := by rw [Reply.outcome, herror]
  rw [readAs, hread]
  show (r.outcome >>= fun v => (decodeValues v).outcome) = _
  rw [houtcome]
  rfl

example : (decodeAll
    "\x7b\"result\": 3, \"error\": \x7b\"code\": 1, \"message\": \"no\"\x7d\x7d").outcome =
      .error (.server 1 "no") := by
  cbv

/-- Nothing else comes out as an error of the server. -/
theorem exists_errorAnswer {e : DecodeError} (h : (decodeAll text).outcome = .error e)
    (hserver : e.isPayloadError = false) : ∃ x, ErrorAnswer text x := by
  have hother : e.isPayloadError ≠ true := by simp [hserver]
  cases hparse : Value.parse text with
  | error fault =>
    have hfails : (decodeAll text).outcome = .error (.json fault.message) := by
      rw [decodeAll_eq_bind, report, parse, hparse]
      rfl
    cases h.symm.trans hfails
    exact absurd rfl hother
  | ok v =>
    cases hreply : isReply v with
    | false =>
      rw [decodeAll_of_not_reply hparse hreply] at h
      exact absurd (isPayloadError_of_decodeValues h) hother
    | true =>
      replace h := (outcome_decodeWith_of_isReply decodeValues hparse hreply).symm.trans h
      obtain ⟨ms, rfl, hkeys⟩ := exists_object_of_parse hparse hreply
      rcases bind_eq_error_iff.1 h with hshape | ⟨r, hr, h⟩
      · exact absurd (isPayloadError_of_readAs hshape) hother
      have hread := mapError_eq_ok_iff.1 hr
      rcases bind_eq_error_iff.1 h with houtcome | ⟨result, _, h⟩
      · cases herror : r.error with
        | some s =>
          obtain ⟨x, hx, hnull⟩ := member_of_error hkeys hread herror
          exact ⟨x, _, r, hparse, hreply, hread, hx, hnull⟩
        | none =>
          rw [Reply.outcome, herror] at houtcome
          cases hresult : r.result with
          | some result => simp [hresult] at houtcome
          | none =>
            simp only [hresult, Except.error.injEq] at houtcome
            exact absurd (houtcome ▸ rfl) hother
      · exact absurd (isPayloadError_of_decodeValues h) hother

/-! ### What is shown -/

/-- Showing fails just when decoding does. -/
theorem render_eq_error_iff {format : Format} {failure : InspectError} :
    (render format text).outcome = .error failure ↔
      ∃ e, (decodeAll text).outcome = .error e ∧ failure = .ofDecodeError e := by
  obtain ⟨write, houtcome⟩ : ∃ write : List Download → String, (render format text).outcome =
      (decodeAll text).outcome.mapError InspectError.ofDecodeError >>= fun ds => .ok (write ds) := by
    simp only [render, Traced.outcome_bind, Traced.outcome_note, ok_bind]
    cases format with
    | summary => exact ⟨summary, rfl⟩
    | json => exact ⟨jsonText, rfl⟩
  rw [houtcome, bind_eq_error_iff, mapError_eq_error_iff]
  simp

/-- Both formats fail for the same texts with the same failures. A failure is the server's, with its
    code and its message, just when the text is an answer with an error of the server; every other
    failure is the report's. -/
theorem render_failures (text : String) :
    (∀ failure, (render .summary text).outcome = .error failure ↔
        (render .json text).outcome = .error failure) ∧
      (∀ format failure, (render format text).outcome = .error failure →
        (∃ x s, ErrorAnswer text x ∧ Shapes.serverError.readValue x = .ok s ∧
            failure = .server (DecodeError.server s.code s.message).message ∧
            failure.exitCode = 69) ∨
          ((∀ x, ¬ErrorAnswer text x) ∧ ∃ reason, failure = .decode reason ∧
            failure.exitCode = 65)) ∧
      ∀ format x, ErrorAnswer text x →
        ∃ reason, (render format text).outcome = .error (.server reason) := by
  refine ⟨fun failure => ?_, fun format failure h => ?_, fun format x h => ?_⟩
  · rw [render_eq_error_iff, render_eq_error_iff]
  · obtain ⟨e, he, rfl⟩ := render_eq_error_iff.1 h
    cases hkind : e.isPayloadError with
    | false =>
      obtain ⟨x, hx⟩ := exists_errorAnswer he hkind
      obtain ⟨s, hs, hdecode⟩ := hx.decodeAll
      cases he.symm.trans hdecode
      exact .inl ⟨x, s, hx, hs, rfl, rfl⟩
    | true =>
      refine .inr ⟨fun x hx => ?_, e.message, ?_, ?_⟩
      · obtain ⟨s, _, hdecode⟩ := hx.decodeAll
        cases he.symm.trans hdecode
        exact nomatch hkind
      · simp [InspectError.ofDecodeError, hkind]
      · simp [InspectError.ofDecodeError, hkind, InspectError.exitCode]
  · obtain ⟨s, _, hdecode⟩ := h.decodeAll
    exact ⟨_, render_eq_error_iff.2 ⟨_, hdecode, rfl⟩⟩

end Text

/-- An error of the server beside a good report is shown as the server's in both formats; an answer
    with an error that has no code is at fault itself. -/
theorem render_failures_beside_report :
    ∃ answer malformed : String,
      answer = "\x7b\"result\": \x7b\x7d, \"error\": \x7b\"code\": 1, \"message\": \"no\"\x7d\x7d" ∧
      malformed = "\x7b\"result\": \x7b\x7d, \"error\": \x7b\"message\": \"no\"\x7d\x7d" ∧
      (∃ refusal failure, ErrorAnswer answer refusal ∧ failure = .server "RPC error 1: no" ∧
        failure.exitCode = 69 ∧ (render .summary answer).outcome = .error failure ∧
        (render .json answer).outcome = .error failure) ∧
      (∀ x, ¬ErrorAnswer malformed x) ∧
        ∃ failure, failure.exitCode = 65 ∧ (render .summary malformed).outcome = .error failure ∧
          (render .json malformed).outcome = .error failure := by
  refine ⟨_, _, rfl, rfl, ?_, ?_⟩
  · have hrefused : (decodeAll
        "\x7b\"result\": \x7b\x7d, \"error\": \x7b\"code\": 1, \"message\": \"no\"\x7d\x7d").outcome =
          .error (.server 1 "no") := by
      rw [decodeAll_eq_bind,
        report_eq (Value.parse_of_outline (Json.Outline.of_eq (by cbv) (by rfl)) (by rfl))]
      rfl
    have hshown := (@render_eq_error_iff _ .summary _).2 ⟨_, hrefused, rfl⟩
    obtain ⟨hformats, hkind, _⟩ := render_failures _
    rcases hkind _ _ hshown with ⟨refusal, _, hanswer, _, _, hcode⟩ | ⟨_, _, hother, _⟩
    · exact ⟨refusal, _, hanswer, rfl, hcode, hshown, (hformats _).1 hshown⟩
    · cases hother
  · have hrefused : (decodeAll
        "\x7b\"result\": \x7b\x7d, \"error\": \x7b\"message\": \"no\"\x7d\x7d").outcome =
          .error (.json "missing field `code`") := by
      rw [decodeAll_eq_bind, report_eq (by cbv)]
      rfl
    have hshown := (@render_eq_error_iff _ .summary _).2 ⟨_, hrefused, rfl⟩
    obtain ⟨hformats, hkind, _⟩ := render_failures _
    rcases hkind _ _ hshown with ⟨_, _, _, _, hother, _⟩ | ⟨hno, _, _, hcode⟩
    · cases hother
    · exact ⟨hno, _, hcode, hshown, (hformats _).1 hshown⟩

end DownloadReport

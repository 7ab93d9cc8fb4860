import DownloadReport.Proofs.Agreement
import DownloadReport.Proofs.Payload

/-! The two readers of a report. One reads the report while it walks through the text; the other makes a
    value of the text first, because an answer may stand around the report, and reads that. On a text
    that no answer is, and in which no object repeats a key, they differ in the words of some errors
    only (`readers_agree`). -/

namespace DownloadReport

open Json (Value Outline)

/-- What becomes of a raw report, in whichever way it was read. -/
def outcomeOfRaw (read : Except Json.ReadError RawDownload) : Except DecodeError Download :=
  read.mapError (fun e => .json e.message) >>= fun raw => (Download.ofRaw raw).outcome

theorem outcome_ofJson (text : String) :
    (Download.ofJson text).outcome = outcomeOfRaw (Shapes.rawDownload.readText text) := by
  rw [Download.ofJson, Traced.outcome_bind, Traced.outcome_lift, outcomeOfRaw]

theorem outcome_decodeValue (v : Value) :
    (decodeValue v).outcome = outcomeOfRaw (Shapes.rawDownload.readValue v) := by
  simp only [decodeValue, Traced.outcome_bind, Traced.outcome_lift, Traced.outcome_pure,
    outcomeOfRaw, readAs]
  congr 1
  funext raw
  cases (Download.ofRaw raw).outcome <;> rfl

/-- What is decoded of a list of raw reports. -/
theorem outcome_decodeValues (v : Value) :
    (decodeValues v).outcome =
      rawDownloads v >>= fun raws => raws.mapM fun raw => (Download.ofRaw raw).outcome := by
  simp only [decodeValues, Traced.outcome_bind, Traced.outcome_lift, Traced.outcome_pure,
    Traced.outcome_forEach, Traced.outcome_note, ok_bind]
  congr 1
  funext raws
  exact bind_pure _

/-- A raw report that both readers have becomes the same download or ends with the same error; one
    that neither has is refused for its shape twice. -/
theorem outcomeOfRaw_of_agree {x y : Except Json.ReadError RawDownload} (h : Agree Eq x y) :
    outcomeOfRaw x = outcomeOfRaw y ∨
      ∃ r s, outcomeOfRaw x = .error (.json r) ∧ outcomeOfRaw y = .error (.json s) := by
  cases h with
  | ok h => exact .inl (by rw [h])
  | error e e' => exact .inr ⟨e.message, e'.message, rfl, rfl⟩

/-- Both readers accept the same texts as the same downloads, refuse the same texts for a field with
    the same error, and refuse the same texts for their shape. -/
theorem readers_agree {text : String} {v : Value} (hparse : Value.parse text = .ok v)
    (hdistinct : (Outline.of text).root.distinctKeys = true) (hreply : isReply v = false) :
    (∀ d, (Download.ofJson text).outcome = .ok d ↔ (decode text).outcome = .ok d) ∧
      (∀ e, (∀ reason, e ≠ .json reason) →
        ((Download.ofJson text).outcome = .error e ↔ (decode text).outcome = .error e)) ∧
      ((∃ reason, (Download.ofJson text).outcome = .error (.json reason)) ↔
        ∃ reason, (decode text).outcome = .error (.json reason)) ∧
      (∀ d, Shapes.download.readText text = .ok d ↔ Shapes.download.readValue v = .ok d) := by
  have hraw : Agree Eq (Shapes.rawDownload.readText text) (Shapes.rawDownload.readValue v) :=
    Json.Shape.readText_agrees Shapes.wellKeyed_rawDownload hparse hdistinct
  have htyped : Agree Eq (Shapes.download.readText text) (Shapes.download.readValue v) :=
    Json.Shape.readText_agrees Shapes.wellKeyed_download hparse hdistinct
  rw [outcome_ofJson, decode_of_not_reply hparse hreply, outcome_decodeValue]
  rcases outcomeOfRaw_of_agree hraw with hsame | ⟨r, s, hfirst, hsecond⟩
  · rw [hsame]
    exact ⟨fun _ => .rfl, fun _ _ => .rfl, .rfl, agree_eq_iff.1 htyped⟩
  · rw [hfirst, hsecond]
    refine ⟨fun d => by simp, fun e he => ?_, ?_, agree_eq_iff.1 htyped⟩
    · simp [(he r).symm, (he s).symm]
    · exact ⟨fun _ => ⟨s, rfl⟩, fun _ => ⟨r, rfl⟩⟩

/-- A download whose files are written as lists, behind a member that is not known. -/
theorem ofJson_positional_files :
    (Download.ofJson
      "\x7b\"new\": [null], \"gid\": \"g\", \"files\": [[\"7\", \"a\"], \x7b\x7d]\x7d").outcome =
      .ok { gid := "g", files := [{ index := 7, path := "a" }, {}] } := by
  have hparse : Value.parse
      "\x7b\"new\": [null], \"gid\": \"g\", \"files\": [[\"7\", \"a\"], \x7b\x7d]\x7d" =
        .ok (.object [("files", .array [.array [.string "7", .string "a"], .object []]),
          ("gid", .string "g"), ("new", .array [.null])]) := by cbv
  obtain ⟨hok, _⟩ := readers_agree hparse (by cbv) rfl
  rw [hok, decode_of_not_reply hparse rfl]
  rfl

end DownloadReport

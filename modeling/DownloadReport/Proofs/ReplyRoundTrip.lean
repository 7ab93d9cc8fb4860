import DownloadReport.Proofs.OrderedValues
import DownloadReport.Proofs.RoundTrip
import DownloadReport.Typed

/-! Answers written and read again. Whatever an answer has and lacks, it comes back from its text as it
    was, when its result does: its id may be any value without floating-point numbers, null included,
    and what it lacks is left out and not mistaken for something (`takesBack_reply`). So answers with a
    download, with a list of downloads and with a text can all be sent on (`reply_round_trip`). -/

namespace DownloadReport

open Json (Value Shape Fields Style)

/-! ### The parts of an answer -/

namespace Shapes

theorem takesBack_signed {room : Nat} (n : Int64) (fits) :
    Shape.signed.TakesBack room n (.number (.integer n.toInt fits)) :=
  ⟨.integer _ fits, nofun, Json.read_signed_iff.2 ⟨fits, rfl⟩⟩

theorem wellKeyed_serverError : serverError.WellKeyed := by
  simp [serverError, Shape.WellKeyed, Fields.WellKeyed, Fields.keys]

theorem takesBack_serverError {room : Nat} (e : ServerError) :
    serverError.TakesBack (room + 1) e e.toValue :=
  Fields.Written.build room ServerError.mk
    |>.field "code" (takesBack_signed e.code _) none
    |>.field "message" (Json.takesBack_string e.message) none
    |>.record wellKeyed_serverError _

/-- A download in its canonical form is taken back. -/
theorem takesBack_download {room : Nat} {d : Download} (h : d.IsCanonical) :
    download.TakesBack (room + 5) d d.toValue := by
  have hraw := takesBack_toValue room d
  have hdecoded : (Download.ofRaw d.toRaw).outcome.mapError DecodeError.message = .ok d := by
    rw [Download.ofRaw_toRaw, Download.canonical_eq_iff.2 h]
    rfl
  exact ⟨hraw.plain, hraw.notNull, Json.read_refine_iff.2 ⟨d.toRaw, hraw.read, hdecoded⟩⟩

/-- An answer is taken back when its result is, whichever of its parts it lacks. -/
theorem takesBack_reply {α : Type} {s : Shape α} (hs : s.WellKeyed) {toValue : α → Value}
    {room : Nat} {r : Reply α} (hid : r.id.Plain (room + 1)) (hordered : r.id.Ordered)
    (hresult : ∀ a ∈ r.result, s.TakesBack (room + 1) a (toValue a)) :
    (reply s).TakesBack (room + 2) r (r.toValue toValue) := by
  have hidRead : Shape.anything.read r.id.sorted = .ok r.id := by
    rw [hordered.sorted_eq]
    rfl
  exact Fields.Written.build (room + 1) Reply.mk
    |>.text "jsonrpc" r.version
    |>.member "id" hid hidRead (some .null)
    |>.optional "result" hresult
    |>.optional "error" (fun e _ => takesBack_serverError e)
    |>.record (wellKeyed_reply hs) _

end Shapes

/-! ### Whole answers -/

/-- An answer comes back from its text, on one line or on several; and the answer that comes back has
    the error of the server for its outcome if there is one, whatever stands beside it, and else its
    result; without either the answer itself is at fault. -/
structure Reply.ComesBack {α : Type} (s : Shape α) (toValue : α → Value) (r : Reply α) : Prop where
  compact : (Shapes.reply s).readText (r.toValue toValue).compact = .ok r
  indented : (Shapes.reply s).readText (r.toValue toValue).indented = .ok r
  failed : ∀ copy, (Shapes.reply s).readText (r.toValue toValue).compact = .ok copy →
    ∀ e, r.error = some e → copy.outcome = .error (.server e.code e.message)
  done : ∀ copy, (Shapes.reply s).readText (r.toValue toValue).compact = .ok copy →
    r.error = none → ∀ a, r.result = some a → copy.outcome = .ok a
  empty : ∀ copy, (Shapes.reply s).readText (r.toValue toValue).compact = .ok copy →
    r.error = none → r.result = none →
      copy.outcome = .error (.json "response has neither result nor error")

theorem Reply.comesBack {α : Type} {s : Shape α} (hs : s.WellKeyed) {toValue : α → Value}
    {r : Reply α} (hid : r.id.Plain 126) (hordered : r.id.Ordered)
    (hresult : ∀ a ∈ r.result, s.TakesBack 126 a (toValue a)) : r.ComesBack s toValue := by
  have hback : (Shapes.reply s).TakesBack Json.deepest r (r.toValue toValue) :=
    Shapes.takesBack_reply hs hid hordered hresult
  have hread := hback.readText (Shapes.wellKeyed_reply hs) Style.isBlank_compact
  have hcopy : ∀ copy, (Shapes.reply s).readText (r.toValue toValue).compact = .ok copy →
      copy = r := fun _ h => Except.ok.inj (h.symm.trans hread)
  refine ⟨hread, hback.readText (Shapes.wellKeyed_reply hs) Style.isBlank_indented, ?_, ?_, ?_⟩
  · intro copy h e he
    rw [hcopy copy h, Reply.outcome, he]
  · intro copy h he a ha
    rw [hcopy copy h, Reply.outcome, he, ha]
  · intro copy h he ha
    rw [hcopy copy h, Reply.outcome, he, ha]

/-- Answers to calls for one download, for several and for a text come back, with any version, code and
    message, with and without a result and an error, and with any id that is free of floating-point
    numbers and at most 126 deep. Downloads are to be in their canonical form. -/
theorem reply_round_trip :
    (∀ r : Reply Download, r.id.Plain 126 → r.id.Ordered → (∀ d ∈ r.result, d.IsCanonical) →
        r.ComesBack Shapes.download Download.toValue) ∧
      (∀ r : Reply (List Download), r.id.Plain 126 → r.id.Ordered →
        (∀ ds ∈ r.result, ∀ d ∈ ds, d.IsCanonical) →
          r.ComesBack (.list Shapes.download) fun ds => .array (ds.map Download.toValue)) ∧
      ∀ r : Reply String, r.id.Plain 126 → r.id.Ordered → r.ComesBack .string .string := by
  refine ⟨fun r hid hordered hresult => ?_, fun r hid hordered hresult => ?_,
    fun r hid hordered => ?_⟩
  · exact Reply.comesBack Shapes.wellKeyed_download hid hordered fun d hd =>
      Shapes.takesBack_download (hresult d hd)
  · exact Reply.comesBack (s := .list Shapes.download) Shapes.wellKeyed_download hid hordered
      fun ds hds => .list fun d hd => Shapes.takesBack_download (hresult ds hds d hd)
  · exact Reply.comesBack (s := .string) trivial hid hordered fun s _ => Json.takesBack_string s

/-- Answers with a result beside an error, with one download, and with two. -/
theorem reply_round_trip_three :
    (Reply.toValue .string ⟨"2.0", .array [.null], some "r", some ⟨-1, "m"⟩⟩).compact =
        "\x7b\"jsonrpc\":\"2.0\",\"id\":[null],\"result\":\"r\"," ++
          "\"error\":\x7b\"code\":-1,\"message\":\"m\"\x7d\x7d" ∧
      Reply.ComesBack .string .string ⟨"2.0", .array [.null], some "r", some ⟨-1, "m"⟩⟩ ∧
      Reply.ComesBack Shapes.download Download.toValue ⟨"", .null, some { gid := "g" }, none⟩ ∧
      Reply.ComesBack (.list Shapes.download) (fun ds => .array (ds.map Download.toValue))
        ⟨"", .null, some [{ gid := "g" }, { state := .other "seeding" }], none⟩ := by
  obtain ⟨hone, hlist, htext⟩ := reply_round_trip
  have hid : (Value.array [.null]).Plain 126 :=
    .array fun v hv => List.mem_singleton.1 hv ▸ .null
  have hordered : (Value.array [.null]).Ordered :=
    .array fun v hv => List.mem_singleton.1 hv ▸ .null
  have hcanonical : Download.IsCanonical { gid := "g" } := Download.canonical_eq_iff.1 rfl
  have hseeding : Download.IsCanonical { state := .other "seeding" } := Download.canonical_eq_iff.1 rfl
  refine ⟨by decide +kernel, htext _ hid hordered, hone _ .null .null fun d hd => ?_,
    hlist _ .null .null fun ds hds => ?_⟩
  · rw [← Option.some.inj hd]
    exact hcanonical
  · rw [← Option.some.inj hds]
    exact List.forall_mem_cons.2 ⟨hcanonical, List.forall_mem_singleton.2 hseeding⟩

end DownloadReport

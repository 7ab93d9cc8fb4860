import DownloadReport.Proofs.ObjectText
import DownloadReport.Proofs.Payload

/-! Answers around reports make no difference. A report, good or bad, is decoded as the result of an
    answer in the same way as by itself: the same downloads or the same error, and the same events
    behind the one that tells of the answer (`decode_answer`). The answer needs one level of nesting
    for itself. -/

namespace DownloadReport

open Json (Value Shape Fields Outline MemberText objectText memberValues textValue Readable sortMembers)

/-- The members of an answer with a result. -/
def answerMembers (version : String) (id result : Value) : List (String × Value) :=
  [("jsonrpc", .string version), ("id", id), ("result", result)]

section Answer

variable {version : String} {id result : Value} {ms : List (String × Value)}

theorem isReply_answer (hms : ms.Perm (answerMembers version id result)) :
    isReply (.object ms) = true := by
  rw [isReply_object_iff, (hms.map Prod.fst).mem_iff]
  exact .inl List.mem_cons_self

/-- An answer with a result other than null is read as such, in whichever order its members come. -/
theorem readAs_answer (hresult : result ≠ .null)
    (hms : ms.Perm (answerMembers version id result)) :
    readAs (Shapes.reply .anything) (.object ms) =
      .ok { version, id, result := some result, error := none } := by
  have hkeys : (ms.map Prod.fst).Nodup := by
    rw [(hms.map Prod.fst).nodup_iff]
    simp [answerMembers]
  have hmem : ∀ m ∈ answerMembers version id result, m ∈ ms := fun m hm => hms.mem_iff.2 hm
  have hnotError : "error" ∉ ms.map Prod.fst := by
    rw [(hms.map Prod.fst).mem_iff]
    simp [answerMembers]
  have hread : (Shape.nullable .anything).read result = .ok (some result) := by
    cases result with
    | null => exact absurd rfl hresult
    | bool _ | number _ | string _ | array _ | object _ => rfl
  have hwell : (Shapes.reply .anything).WellKeyed :=
    Shapes.wellKeyed_reply (by simp [Shape.WellKeyed])
  have hfields : (Shapes.reply .anything).read (Value.object ms) =
      .ok { version, id, result := some result, error := none } := by
    refine (Json.readMembers_eq_ok_iff hwell hkeys fun _ _ => rfl).2 ?_
    have hbuild : (Fields.build (@Reply.mk Value)).Reads ms Reply.mk := by rw [Fields.Reads]
    have hversion := hbuild.present (hmem ("jsonrpc", .string version) (by simp [answerMembers]))
      (s := .string) rfl (some "")
    have hid := hversion.present (hmem ("id", id) (by simp [answerMembers]))
      (s := .anything) rfl (some .null)
    have hresult := hid.present (hmem ("result", result) (by simp [answerMembers])) hread (some none)
    exact hresult.missing hnotError (.nullable Shapes.serverError) none
  rw [readAs, Json.Shape.readValue, hfields]
  rfl

/-- The report in an answer is its result. -/
theorem payload_answer (hresult : result ≠ .null)
    (hms : ms.Perm (answerMembers version id result)) :
    payload (.object ms) = ⟨[.unwrapped id], .ok result⟩ := by
  rw [payload, isReply_answer hms, readAs_answer hresult hms]
  rfl

end Answer

/-- A string nests nothing. -/
theorem readable_string {text s : String} (h : Value.parse text = .ok (.string s)) :
    Readable 126 text := by
  obtain ⟨hvalue, _⟩ := Value.parse_eq_ok_iff.1 h
  refine ⟨_, h, ?_⟩
  generalize (Outline.of text).root = root at hvalue ⊢
  cases root with
  | list items => obtain ⟨_, _, _, _, hv⟩ := Json.Node.value_list.1 hvalue; exact nomatch hv
  | object members => obtain ⟨_, _, _, _, hv⟩ := Json.Node.value_object.1 hvalue; exact nomatch hv
  | _ => exact Nat.zero_le _

/-- A report that is the result of an answer is decoded as it is by itself. -/
theorem decode_answer {text idText versionText version : String} {v id : Value}
    {ms : List MemberText} (hparse : Value.parse text = .ok v) (hnull : v ≠ .null)
    (hreply : isReply v = false) (hdepth : (Outline.of text).root.depth ≤ 126)
    (hversion : Value.parse versionText = .ok (.string version))
    (hid : Value.parse idText = .ok id) (hidDepth : (Outline.of idText).root.depth ≤ 126)
    (hms : (ms.map fun m => (m.key, m.value)).Perm
      [("jsonrpc", versionText), ("id", idText), ("result", text)]) :
    decode (objectText ms) = ⟨.unwrapped id :: (decode text).events, (decode text).outcome⟩ ∧
      decodeAll (objectText ms) =
        ⟨.unwrapped id :: (decodeAll text).events, (decodeAll text).outcome⟩ := by
  -- The answer is one level, so each of its members may have 126 of the 127.
  have hreadable : ∀ m ∈ ms, Readable 126 m.value := by
    intro m hm
    have hmem := hms.mem_iff.1 (List.mem_map.2 ⟨m, hm, rfl⟩)
    simp only [List.mem_cons, Prod.mk.injEq, List.not_mem_nil, or_false] at hmem
    rcases hmem with ⟨_, hm⟩ | ⟨_, hm⟩ | ⟨_, hm⟩ <;> rw [hm]
    · exact readable_string hversion
    · exact ⟨id, hid, hidDepth⟩
    · exact ⟨v, hparse, hdepth⟩
  have hvalues : (memberValues ms).Perm (answerMembers version id v) := by
    have h := hms.map fun m => (m.1, textValue m.2)
    rw [List.map_map] at h
    simp only [List.map_cons, List.map_nil, Json.textValue_of_parse hversion,
      Json.textValue_of_parse hid, Json.textValue_of_parse hparse] at h
    exact h
  have hsorted : (sortMembers (memberValues ms)).Perm (answerMembers version id v) := by
    refine (Json.sortMembers_perm ?_).trans hvalues
    rw [(hvalues.map Prod.fst).nodup_iff]
    simp [answerMembers]
  have hanswer := Json.parse_objectText hreadable
  have hpayload := payload_answer hnull hsorted
  rw [decode_eq hanswer hpayload, decodeAll_eq hanswer hpayload, decode_of_not_reply hparse hreply,
    decodeAll_of_not_reply hparse hreply]
  exact ⟨rfl, rfl⟩

/-- An answer whose result comes first. -/
theorem decode_answer_result_first :
    decode (objectText [⟨[], "result", [], "\x7b\"gid\": \"g\"\x7d", .nil, .nil⟩,
        ⟨[], "jsonrpc", [], " \"2.0\"", .nil, .nil⟩, ⟨[], "id", [], "[\"x\"]", .nil, .nil⟩]) =
      ⟨[.unwrapped (.array [.string "x"]), .decoded "g" .unreported], .ok { gid := "g" }⟩ := by
  have hparse : Value.parse "\x7b\"gid\": \"g\"\x7d" = .ok (.object [("gid", .string "g")]) := by
    cbv
  have hnull : Value.object [("gid", .string "g")] ≠ .null := by
    rintro ⟨⟩
  refine (@decode_answer _ "[\"x\"]" " \"2.0\"" "2.0" _ (.array [.string "x"]) _ hparse hnull rfl
    (by cbv) (by cbv) (by cbv) (by cbv) (by exact (List.perm_append_singleton _ _).symm)).1.trans ?_
  rw [decode_of_not_reply hparse rfl]
  rfl

end DownloadReport

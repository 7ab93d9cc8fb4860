import DownloadReport.Json.Printer
import DownloadReport.Proofs.Scanning
import DownloadReport.Proofs.Written

/-! Objects put together from texts. When the values of some members are texts by themselves, the text of
    the object with these members denotes the object of what the texts denote (`parse_objectText`),
    with one more list or object around each of them. -/

namespace DownloadReport.Json

/-- A member of an object as it stands in a text: blanks, its key, blanks, a colon, and the text of its
    value, which may have blanks around it. -/
structure MemberText where
  before : List Char := []
  key : String
  behind : List Char := []
  value : String
  blank : Blank before ∧ Blank behind

/-- The text of members with commas between them, up to the closing bracket. -/
def membersText : List MemberText → List Char
  | [] => ['\x7d']
  | [m] => m.before ++ writeString m.key ++ m.behind ++ [':'] ++ m.value.toList ++ ['\x7d']
  | m :: ms =>
    m.before ++ writeString m.key ++ m.behind ++ [':'] ++ m.value.toList ++ [','] ++ membersText ms

/-- The text of an object. -/
def objectText (ms : List MemberText) : String := String.ofList ('\x7b' :: membersText ms)

/-- The value of a text that has one. -/
def textValue (text : String) : Value :=
  match Value.parse text with
  | .ok v => v
  | .error _ => .null

theorem textValue_of_parse {text : String} {v : Value} (h : Value.parse text = .ok v) :
    textValue text = v := by
  rw [textValue, h]

/-- A text that has a value within so much room. -/
def Readable (room : Nat) (text : String) : Prop :=
  ∃ v, Value.parse text = .ok v ∧ (Outline.of text).root.depth ≤ room

/-- A text with a value spells it, and the value can be read with as much room as it needs. -/
theorem Readable.spelled {room : Nat} {text : String} (h : Readable room text) :
    ∃ n, SpellsText text.toList n ∧ n.value room = .ok (textValue text) := by
  obtain ⟨v, hparse, hdepth⟩ := h
  obtain ⟨hvalue, hend⟩ := Value.parse_eq_ok_iff.1 hparse
  have hspell : SpellsText text.toList (Outline.of text).root := by
    refine spellsText_iff.2 ⟨?_, Node.skim_of_value hvalue⟩
    rw [← hend]
  rw [textValue_of_parse hparse]
  exact ⟨_, hspell, Node.value_of_depth_le hvalue hdepth⟩

/-- The members of the object that members of a text denote. -/
def memberValues (ms : List MemberText) : List (String × Value) :=
  ms.map fun m => (m.key, textValue m.value)

theorem spells_membersText {room : Nat} {m : MemberText} {ms : List MemberText}
    (h : ∀ m' ∈ m :: ms, Readable room m'.value) :
    ∃ cs members, membersText (m :: ms) = m.before ++ '"' :: cs ∧ SpellsMembers cs members ∧
      members.values room = .ok (memberValues (m :: ms)) := by
  induction ms generalizing m with
  | nil =>
    obtain ⟨n, ⟨a, vs, b, ha, hspell, hb, htext⟩, hvalue⟩ := (h m List.mem_cons_self).spelled
    obtain ⟨ks, hks, hkey⟩ := spells_writeString m.key
    refine ⟨_, _, ?_, .last hkey m.blank.2 ha hspell hb, ?_⟩
    · simp [membersText, hks, htext]
    · exact Members.values_member.2 ⟨m.key, _, [], decode_pieces m.key, hvalue, rfl, rfl⟩
  | cons m' ms ih =>
    obtain ⟨n, ⟨a, vs, b, ha, hspell, hb, htext⟩, hvalue⟩ := (h m List.mem_cons_self).spelled
    obtain ⟨ks, hks, hkey⟩ := spells_writeString m.key
    obtain ⟨cs, rest, hcs, hrest, hvalues⟩ := ih fun u hu => h u (List.mem_cons_of_mem _ hu)
    refine ⟨_, _, ?_, .more hkey m.blank.2 ha hspell hb m'.blank.1 hrest, ?_⟩
    · rw [membersText, hcs]
      · simp [hks, htext]
      · simp
    · exact Members.values_member.2 ⟨m.key, _, _, decode_pieces m.key, hvalue, hvalues, rfl⟩

/-- The text of an object denotes the object of what the texts of its members denote. -/
theorem parse_objectText {ms : List MemberText} (h : ∀ m ∈ ms, Readable 126 m.value) :
    Value.parse (objectText ms) = .ok (.object (sortMembers (memberValues ms))) := by
  obtain ⟨n, hspell, hvalue⟩ : ∃ n, Spells ('\x7b' :: membersText ms) n ∧
      n.value deepest = .ok (.object (sortMembers (memberValues ms))) := by
    cases ms with
    | nil => exact ⟨_, .emptyObject .nil, rfl⟩
    | cons m ms =>
      obtain ⟨cs, members, hcs, hmembers, hvalues⟩ := spells_membersText h
      refine ⟨.object members, ?_, Node.value_object.2 ⟨126, _, rfl, hvalues, rfl⟩⟩
      rw [hcs]
      exact .object m.blank.1 hmembers
  have htext : SpellsText (objectText ms).toList n :=
    ⟨[], _, [], .nil, hspell, .nil, by simp [objectText]⟩
  exact Value.parse_of_outline (spellsText_iff.1 htext).1 hvalue

end DownloadReport.Json

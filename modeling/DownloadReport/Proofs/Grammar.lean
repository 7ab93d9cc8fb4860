import DownloadReport.Json.Reading
import DownloadReport.Proofs.Outcome
import DownloadReport.Proofs.Spelling

/-! How values are spelled: the grammar of JSON texts, as a relation between characters and the outline
    of what they spell. A text that spells a value may have blanks before and behind it. Only
    well-formed outlines are spelled, which are those that nothing is wrong with when they are passed
    over. -/

namespace DownloadReport.Json

/-! ### Blanks -/

/-- Nothing but blanks. -/
def Blank (cs : List Char) : Prop := ∀ c ∈ cs, isBlank c = true

theorem Blank.nil : Blank [] := nofun

theorem Blank.append {a b : List Char} (ha : Blank a) (hb : Blank b) : Blank (a ++ b) := by
  intro c hc
  rcases List.mem_append.1 hc with h | h
  · exact ha c h
  · exact hb c h

/-- Blanks are skipped up to what is none. -/
theorem skipBlank_append {a : List Char} (ha : Blank a) {c : Char} (hc : isBlank c = false)
    (r : List Char) : skipBlank (a ++ c :: r) = c :: r := by
  rw [skipBlank, List.dropWhile_append_of_pos ha, List.dropWhile_cons_of_neg (by simp [hc])]

theorem skipBlank_blank {a : List Char} (ha : Blank a) : skipBlank a = [] :=
  List.dropWhile_eq_nil_iff.2 ha

/-- What is skipped are blanks. -/
theorem blank_skipped (text : List Char) : ∃ a, Blank a ∧ text = a ++ skipBlank text :=
  ⟨text.takeWhile isBlank, fun _ h => List.mem_takeWhile_imp h,
    List.takeWhile_append_dropWhile.symm⟩

/-- A number ends before blanks and before what separates values. -/
theorem endsNumber_blank {b : List Char} (hb : Blank b) : EndsNumber b := by
  cases b with
  | nil => exact nofun
  | cons c r => exact endsNumber_cons (.inr (.inr (.inr (hb c List.mem_cons_self)))) r

theorem endsNumber_append {b : List Char} (hb : Blank b) {more : List Char} (hm : EndsNumber more) :
    EndsNumber (b ++ more) := by
  cases b with
  | nil => exact hm
  | cons c r => exact endsNumber_cons (.inr (.inr (.inr (hb c List.mem_cons_self)))) _

/-! ### The grammar -/

mutual
/-- How a value is spelled, without blanks around it. -/
inductive Spells : List Char → Node → Prop where
  | null : Spells ['n', 'u', 'l', 'l'] .null
  | boolTrue : Spells ['t', 'r', 'u', 'e'] (.bool true)
  | boolFalse : Spells ['f', 'a', 'l', 's', 'e'] (.bool false)
  | number {cs : List Char} {n : NumberText} (h : SpellsNumber cs n) : Spells cs (.number n)
  | string {cs : List Char} {ps : List StringPiece} (h : SpellsString cs ps) :
      Spells ('"' :: cs) (.string ⟨ps, .closed⟩)
  | emptyList {a : List Char} (ha : Blank a) : Spells ('[' :: (a ++ [']'])) (.list (.stop .closed))
  | list {a cs : List Char} {items : Items} (ha : Blank a) (h : SpellsItems cs items) :
      Spells ('[' :: (a ++ cs)) (.list items)
  | emptyObject {a : List Char} (ha : Blank a) :
      Spells ('\x7b' :: (a ++ ['\x7d'])) (.object (.stop .closed))
  | object {a cs : List Char} {members : Members} (ha : Blank a) (h : SpellsMembers cs members) :
      Spells ('\x7b' :: (a ++ '"' :: cs)) (.object members)
/-- How the items of a list are spelled, from the first one to the closing bracket. -/
inductive SpellsItems : List Char → Items → Prop where
  | last {cs b : List Char} {n : Node} (h : Spells cs n) (hb : Blank b) :
      SpellsItems (cs ++ (b ++ [']'])) (.item n (.stop .closed))
  | more {cs b a ds : List Char} {n : Node} {rest : Items} (h : Spells cs n) (hb : Blank b)
      (ha : Blank a) (hr : SpellsItems ds rest) :
      SpellsItems (cs ++ (b ++ ',' :: (a ++ ds))) (.item n rest)
/-- How the members of an object are spelled, from behind the quotation mark of the first key to the
    closing bracket. -/
inductive SpellsMembers : List Char → Members → Prop where
  | last {ks b a cs c : List Char} {ps : List StringPiece} {n : Node} (hk : SpellsString ks ps)
      (hb : Blank b) (ha : Blank a) (h : Spells cs n) (hc : Blank c) :
      SpellsMembers (ks ++ (b ++ ':' :: (a ++ (cs ++ (c ++ ['\x7d'])))))
        (.member ⟨ps, .closed⟩ n (.stop .closed))
  | more {ks b a cs c d ds : List Char} {ps : List StringPiece} {n : Node} {rest : Members}
      (hk : SpellsString ks ps) (hb : Blank b) (ha : Blank a) (h : Spells cs n) (hc : Blank c)
      (hd : Blank d) (hr : SpellsMembers ds rest) :
      SpellsMembers (ks ++ (b ++ ':' :: (a ++ (cs ++ (c ++ ',' :: (d ++ '"' :: ds))))))
        (.member ⟨ps, .closed⟩ n rest)
end

/-- A text that spells a value, with blanks before and behind it. -/
def SpellsText (text : List Char) (n : Node) : Prop :=
  ∃ a cs b, Blank a ∧ Spells cs n ∧ Blank b ∧ text = a ++ (cs ++ b)

/-- A value begins with neither a blank nor a closing bracket. -/
theorem Spells.begins {cs : List Char} {n : Node} (h : Spells cs n) :
    ∃ c r, cs = c :: r ∧ isBlank c = false ∧ c ≠ ']' := by
  cases h with
  | number h =>
    obtain ⟨c, r, rfl, hc⟩ := h.begins
    refine ⟨c, r, rfl, ?_, ?_⟩
    · rcases hc with rfl | hc
      · decide
      · simp only [isBlank, Bool.or_eq_false_iff, decide_eq_false_iff_not]
        refine ⟨⟨⟨?_, ?_⟩, ?_⟩, ?_⟩ <;> rintro rfl <;> simp at hc
    · rintro rfl
      simp at hc
  | null | boolTrue | boolFalse | string | emptyList | list | emptyObject | object =>
    exact ⟨_, _, rfl, by decide, by decide⟩

theorem SpellsItems.begins {cs : List Char} {items : Items} (h : SpellsItems cs items) :
    ∃ c r, cs = c :: r ∧ isBlank c = false ∧ c ≠ ']' := by
  cases h with
  | last h _ | more h _ _ _ =>
    obtain ⟨c, r, rfl, hc⟩ := h.begins
    exact ⟨c, _, rfl, hc⟩

theorem Spells.length_pos {cs : List Char} {n : Node} (h : Spells cs n) : 0 < cs.length := by
  obtain ⟨c, r, rfl, _⟩ := h.begins
  simp

/-! ### Well-formed outlines -/

theorem NumberText.skim_eq_ok_iff {n : NumberText} : n.skim = .ok () ↔ n.fault = none := by
  cases h : n.fault <;> simp [NumberText.skim, h]

theorem StringText.skim_eq_ok_iff {s : StringText} : s.skim = .ok () ↔ s.stop = .closed := by
  cases h : s.stop <;> simp [StringText.skim, h, StringStop.fault?]

theorem Items.skim_item {n : Node} {rest : Items} :
    (Items.item n rest).skim = .ok () ↔ n.skim = .ok () ∧ rest.skim = .ok () := by
  simp [Items.skim, check_eq_ok_iff]

theorem Members.skim_member {key : StringText} {n : Node} {rest : Members} :
    (Members.member key n rest).skim = .ok () ↔
      key.stop = .closed ∧ n.skim = .ok () ∧ rest.skim = .ok () := by
  simp [Members.skim, check_eq_ok_iff, StringText.skim_eq_ok_iff]

theorem ListStop.skim_stop {s : ListStop} : (Items.stop s).skim = .ok () ↔ s = .closed := by
  cases s <;> simp [Items.skim, ListStop.skimFault?, ListStop.fault?, failWith]

theorem ObjectStop.skim_stop {s : ObjectStop} : (Members.stop s).skim = .ok () ↔ s = .closed := by
  cases s <;> simp [Members.skim, ObjectStop.skimFault?, ObjectStop.fault?, failWith]

mutual
/-- What is spelled is well formed. -/
theorem Spells.skim : ∀ {cs : List Char} {n : Node}, Spells cs n → n.skim = .ok ()
  | _, _, .null | _, _, .boolTrue | _, _, .boolFalse | _, _, .string _ | _, _, .emptyList _
  | _, _, .emptyObject _ => rfl
  | _, _, .number h => NumberText.skim_eq_ok_iff.2 h.fault_eq_none
  | _, _, .list _ h => h.skim
  | _, _, .object _ h => h.skim
theorem SpellsItems.skim : ∀ {cs : List Char} {items : Items}, SpellsItems cs items →
    items.skim = .ok ()
  | _, _, .last h _ => Items.skim_item.2 ⟨h.skim, rfl⟩
  | _, _, .more h _ _ hr => Items.skim_item.2 ⟨h.skim, hr.skim⟩
theorem SpellsMembers.skim : ∀ {cs : List Char} {members : Members}, SpellsMembers cs members →
    members.skim = .ok ()
  | _, _, .last _ _ _ h _ => Members.skim_member.2 ⟨rfl, h.skim, rfl⟩
  | _, _, .more _ _ _ h _ _ hr => Members.skim_member.2 ⟨rfl, h.skim, hr.skim⟩
end

end DownloadReport.Json

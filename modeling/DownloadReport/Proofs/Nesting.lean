import DownloadReport.Proofs.Denotation
import DownloadReport.Proofs.Fieldwise

/-! Records within records. When a value can be decoded in two parts, so can the record that it is a part
    of, with everything else in it unchanged: what stands in a field of a record (`Splits.field`), an
    item of a list (`Splits.item`), and a record that may be absent (`Splits.present`). -/

namespace DownloadReport

open Json (Value Shape)

/-! ### Fields with records in them -/

namespace RecordField

open Fieldwise

variable {α β : Type} [Fieldwise β]

/-- A record that may be absent. -/
def present (key : String) (get : α → Option β) : RecordField α where
  key
  get
  shape := .nullable (@Fieldwise.shape β _)
  absent := none
  Makes := Option.Rel Decodes

/-- A list of records. -/
def items (key : String) (get : α → List β) : RecordField α where
  key
  get
  shape := .list (@Fieldwise.shape β _)
  absent := []
  Makes := List.Forall₂ Decodes

/-- A list of records that may be null. -/
def optionalItems (key : String) (get : α → List β) : RecordField α where
  key
  get
  shape := .nullable (.list (@Fieldwise.shape β _))
  absent := none
  Makes raw bs := List.Forall₂ Decodes (raw.getD []) bs

variable {key : String} {v : Value}

theorem from_present_iff {get : α → Option β} (hnull : v ≠ .null) {o : Option β} :
    (present key get).From v o ↔ ∃ b, Made v b ∧ o = some b := by
  constructor
  · rintro ⟨raw, hread, hmakes⟩
    rcases Json.read_nullable_iff.1 hread with ⟨h, _⟩ | ⟨_, raw, hraw, rfl⟩
    · exact absurd h hnull
    · cases hmakes with
      | some hb => exact ⟨_, ⟨raw, hraw, hb⟩, rfl⟩
  · rintro ⟨b, ⟨raw, hread, hb⟩, rfl⟩
    exact ⟨some raw, Json.read_nullable_iff.2 (.inr ⟨hnull, raw, hread, rfl⟩), .some hb⟩

theorem from_items_iff {get : α → List β} {values : List Value} {bs : List β} :
    (items key get).From (.array values) bs ↔ List.Forall₂ Made values bs := by
  refine Iff.trans ?_ forall₂_comp_iff.symm
  constructor
  · rintro ⟨raws, hread, hmakes⟩
    obtain ⟨_, ⟨⟩, hreads⟩ := Json.read_list_iff.1 hread
    exact ⟨raws, hreads, hmakes⟩
  · rintro ⟨raws, hreads, hmakes⟩
    exact ⟨raws, Json.read_list_iff.2 ⟨values, rfl, hreads⟩, hmakes⟩

theorem from_optionalItems_iff {get : α → List β} {values : List Value} {bs : List β} :
    (optionalItems key get).From (.array values) bs ↔ List.Forall₂ Made values bs := by
  rw [← @from_items_iff α β _ key get]
  constructor
  · rintro ⟨raw, hread, hmakes⟩
    rcases Json.read_nullable_iff.1 hread with ⟨h, _⟩ | ⟨_, raws, hraws, rfl⟩
    · exact nomatch h
    · exact ⟨raws, hraws, hmakes⟩
  · rintro ⟨raws, hread, hmakes⟩
    exact ⟨some raws, Json.read_nullable_iff.2 (.inr ⟨nofun, raws, hread, rfl⟩), hmakes⟩

end RecordField

namespace Fieldwise

/-! ### Contexts -/

/-- The context of one field in a record: what stands under its key, or at its position, may differ, and
    everything else is the same. -/
inductive Slot (α : Type) [Fieldwise α] (key : String) : (Value → Value) → Prop where
  | member (before after : List (String × Value)) :
      Slot α key fun v => .object (before ++ (key, v) :: after)
  | position (before after : List Value) (hkey : (keys α)[before.length]? = some key) :
      Slot α key fun v => .array (before ++ v :: after)

/-- The context of one item in a list. -/
inductive Item (i : Nat) : (Value → Value) → Prop where
  | mk (before after : List Value) (hi : before.length = i) :
      Item i fun v => .array (before ++ v :: after)

/-- The results differ in one field, and there as related. -/
structure OnField {α : Type} [Fieldwise α] (f : RecordField α) (R : f.Out → f.Out → f.Out → Prop)
    (a a₁ a₂ : α) : Prop where
  own : R (f.get a) (f.get a₁) (f.get a₂)
  other : ∀ g ∈ fields, g.key ≠ f.key → g.get a₁ = g.get a ∧ g.get a₂ = g.get a

/-- The results differ in one item, and there as related. -/
def OnItem {β : Type} (i : Nat) (R : β → β → β → Prop) (bs bs₁ bs₂ : List β) : Prop :=
  ∃ before after b b₁ b₂, before.length = i ∧ bs = before ++ b :: after ∧
    bs₁ = before ++ b₁ :: after ∧ bs₂ = before ++ b₂ :: after ∧ R b b₁ b₂

/-- The results are all there, and related. -/
def OnSome {β : Type} (R : β → β → β → Prop) (o o₁ o₂ : Option β) : Prop :=
  ∃ b b₁ b₂, o = some b ∧ o₁ = some b₁ ∧ o₂ = some b₂ ∧ R b b₁ b₂

/-- Items beside keys, with one of them set apart. -/
theorem zip_position {key : String} {ks : List String} (hks : ks.Nodup) {before : List Value}
    (after : List Value) (hkey : ks[before.length]? = some key) :
    ∃ others : List (String × Value), key ∉ others.map Prod.fst ∧
      ∀ v, (ks.zip (before ++ v :: after)).Perm ((key, v) :: others) := by
  obtain ⟨hlength, hget⟩ := List.getElem?_eq_some_iff.1 hkey
  have hsplit : ks = ks.take before.length ++ key :: ks.drop (before.length + 1) := by
    rw [← hget, List.cons_getElem_drop_succ, List.take_append_drop]
  have htake : (ks.take before.length).length = before.length :=
    List.length_take_of_le (Nat.le_of_lt hlength)
  rw [hsplit] at hks
  obtain ⟨_, hafter, hdisjoint⟩ := List.nodup_append.1 hks
  refine ⟨(ks.take before.length).zip before ++ (ks.drop (before.length + 1)).zip after, ?_,
    fun v => ?_⟩
  · rw [List.map_append, List.mem_append]
    rintro (hmem | hmem)
    · refine Json.not_mem_zip_keys (fun hk => ?_) hmem
      exact hdisjoint key hk key List.mem_cons_self rfl
    · exact Json.not_mem_zip_keys (List.nodup_cons.1 hafter).1 hmem
  · have hzip : ks.zip (before ++ v :: after) =
        (ks.take before.length).zip before ++ (key, v) :: (ks.drop (before.length + 1)).zip after := by
      conv_lhs => rw [hsplit]
      rw [List.zip_append htake]
      rfl
    rw [hzip]
    exact List.perm_middle

section Slot

variable {α : Type} [Fieldwise α] {key : String} {c : Value → Value}

/-- A record with something in a slot is decoded as that, under the key of the slot, beside members that
    are always the same. -/
theorem Slot.exists_others (hc : Slot α key c) {v : Value} (hd : (c v).Distinct) :
    ∃ (fits : Prop) (others : List (String × Value)), key ∉ others.map Prod.fst ∧
      ∀ w (a : α), Made (c w) a ↔
        fits ∧ ∀ f ∈ fields, f.Reads ((key, w) :: others) (f.get a) := by
  have hperm : ∀ {es es' : List (String × Value)} (a : α), es.Perm es' →
      ((∀ f ∈ fields, f.Reads es (f.get a)) ↔ ∀ f ∈ fields, f.Reads es' (f.get a)) := by
    intro es es' a h
    exact ⟨fun ha f hf => (ha f hf).perm h, fun ha f hf => (ha f hf).perm h.symm⟩
  cases hc with
  | member before after =>
    have hkeys : ((before ++ (key, v) :: after).map Prod.fst).Nodup := by
      cases hd with
      | object hkeys _ => exact hkeys
    have hmiddle : ∀ w, ((before ++ (key, w) :: after).map Prod.fst).Perm
        (key :: (before ++ after).map Prod.fst) := fun w => List.perm_middle.map Prod.fst
    refine ⟨True, before ++ after, ?_, fun w a => ?_⟩
    · exact (List.nodup_cons.1 ((hmiddle v).nodup_iff.1 hkeys)).1
    · have hnodup := (hmiddle w).nodup_iff.2 ((hmiddle v).nodup_iff.1 hkeys)
      rw [made_object_iff hnodup, true_and]
      exact hperm a List.perm_middle
  | position before after hkey =>
    obtain ⟨others, hothers, hzip⟩ := zip_position nodup_keys after hkey
    refine ⟨before.length + (after.length + 1) ≤ (keys α).length, others, hothers, fun w a => ?_⟩
    rw [made_array_iff, hperm a (hzip w), List.length_append, List.length_cons]

theorem Slot.ne_null (hc : Slot α key c) (v : Value) : c v ≠ .null := by
  cases hc <;> exact nofun

/-- What is in a slot repeats no key when the record does not. -/
theorem Slot.distinct (hc : Slot α key c) {v : Value} (hd : (c v).Distinct) : v.Distinct := by
  cases hc with
  | member before after =>
    cases hd with
    | object _ h => exact h (key, v) (List.mem_append_right _ List.mem_cons_self)
  | position before after _ =>
    cases hd with
    | array h => exact h v (List.mem_append_right _ List.mem_cons_self)

/-- What repeats no key can be put into a slot of a record that repeats none. -/
theorem Slot.distinct_put (hc : Slot α key c) {v w : Value} (hd : (c v).Distinct)
    (hw : w.Distinct) : (c w).Distinct := by
  cases hc with
  | member before after =>
    cases hd with
    | object hkeys h =>
      refine .object (by simpa using hkeys) fun m hm => ?_
      rcases List.mem_append.1 hm with hm | hm
      · exact h m (List.mem_append_left _ hm)
      · rcases List.mem_cons.1 hm with rfl | hm
        · exact hw
        · exact h m (List.mem_append_right _ (List.mem_cons_of_mem _ hm))
  | position before after _ =>
    cases hd with
    | array h =>
      refine .array fun x hx => ?_
      rcases List.mem_append.1 hx with hx | hx
      · exact h x (List.mem_append_left _ hx)
      · rcases List.mem_cons.1 hx with rfl | hx
        · exact hw
        · exact h x (List.mem_append_right _ (List.mem_cons_of_mem _ hx))

/-- What is in a slot makes no difference for the other members of a record. -/
theorem Slot.member?_eq (hc : Slot α key c) {k : String} (hk : k ≠ key) (v w : Value) :
    (c v).member? k = (c w).member? k := by
  cases hc with
  | member before after => simp [Value.member?, Json.findMember, List.find?_append, Ne.symm hk]
  | position before after _ => rfl

variable {f : RecordField α} {v w : Value}

/-- What is in a slot is decoded by itself. -/
theorem Slot.made_get (hf : f ∈ fields) (hc : Slot α f.key c) (hd : (c v).Distinct) {a : α}
    (ha : Made (c v) a) : f.From v (f.get a) := by
  obtain ⟨_, others, hothers, hmade⟩ := hc.exists_others hd
  exact (RecordField.reads_cons_iff hothers).1 (((hmade v a).1 ha).2 f hf)

/-- What is in a slot can be replaced, and then only its field changes. -/
theorem Slot.exists_put (hf : f ∈ fields) (hc : Slot α f.key c) (hd : (c v).Distinct) {a : α}
    (ha : Made (c v) a) {b : f.Out} (hb : f.From w b) :
    ∃ a', Made (c w) a' ∧ f.get a' = b ∧ ∀ g ∈ fields, g.key ≠ f.key → g.get a' = g.get a := by
  obtain ⟨_, others, hothers, hmade⟩ := hc.exists_others hd
  obtain ⟨hfits, hreads⟩ := (hmade v a).1 ha
  have hvalues : ∀ g : RecordField α, g ∈ fields → ∃ b', g.Reads ((f.key, w) :: others) b' ∧
      (∀ h : g = f, h ▸ b' = b) ∧ (g.key ≠ f.key → b' = g.get a) := by
    intro g hg
    by_cases hgf : g = f
    · subst hgf
      exact ⟨b, (RecordField.reads_cons_iff hothers).2 hb, fun _ => rfl, fun h => absurd rfl h⟩
    · have hkey : g.key ≠ f.key := fun h => hgf (eq_of_key_eq hg hf h)
      exact ⟨g.get a, RecordField.reads_cons_other hkey v w (hreads g hg), fun h => absurd h hgf,
        fun _ => rfl⟩
  obtain ⟨a', ha'⟩ := assembles _ hvalues
  exact ⟨a', (hmade w a').2 ⟨hfits, fun g hg => (ha' g hg).1⟩, (ha' f hf).2.1 rfl,
    fun g hg => (ha' g hg).2.2⟩

/-- What becomes of a record with `v` in a slot is what becomes of it with `w` there, but for the field
    of the slot, which is made of `v`. -/
theorem Slot.made_put_iff (hf : f ∈ fields) (hc : Slot α f.key c) (put : α → f.Out → α)
    (hown : ∀ a b, f.get (put a b) = b)
    (hother : ∀ a b, ∀ g ∈ fields, g.key ≠ f.key → g.get (put a b) = g.get a)
    (hv : (c v).Distinct) (hw : (c w).Distinct) (hfrom : ∀ b, f.From v b → ∃ b₀, f.From w b₀)
    {a : α} : Made (c v) a ↔ ∃ a₀ b, Made (c w) a₀ ∧ f.From v b ∧ a = put a₀ b := by
  have heq : ∀ {a a₀ : α}, (∀ g ∈ fields, g.key ≠ f.key → g.get a = g.get a₀) →
      a = put a₀ (f.get a) := by
    intro a a₀ hsame
    refine ext_of_field hf (hown _ _).symm fun g hg hkey => ?_
    rw [hother _ _ g hg hkey, hsame g hg hkey]
  constructor
  · intro ha
    have hb := hc.made_get hf hv ha
    obtain ⟨_, hb₀⟩ := hfrom _ hb
    obtain ⟨a₀, ha₀, _, hsame⟩ := hc.exists_put hf hv ha hb₀
    exact ⟨a₀, _, ha₀, hb, heq fun g hg hkey => (hsame g hg hkey).symm⟩
  · rintro ⟨a₀, b, ha₀, hb, rfl⟩
    obtain ⟨a, ha, rfl, hsame⟩ := hc.exists_put hf hw ha₀ hb
    exact heq hsame ▸ ha

/-- What is in a slot can be decoded in two parts when it can by itself. -/
theorem Splits.field (hf : f ∈ fields) (hc : Slot α f.key c) {v₁ v₂ : Value}
    {R : f.Out → f.Out → f.Out → Prop} (h : Splits f.From R v v₁ v₂) (hd : (c v).Distinct)
    (hd₁ : (c v₁).Distinct) (hd₂ : (c v₂).Distinct) :
    Splits Made (OnField f R) (c v) (c v₁) (c v₂) where
  split a ha := by
    obtain ⟨b₁, b₂, hb₁, hb₂, hR⟩ := h.split _ (hc.made_get hf hd ha)
    obtain ⟨a₁, ha₁, rfl, hother₁⟩ := hc.exists_put hf hd ha hb₁
    obtain ⟨a₂, ha₂, rfl, hother₂⟩ := hc.exists_put hf hd ha hb₂
    exact ⟨a₁, a₂, ha₁, ha₂, hR, fun g hg hkey => ⟨hother₁ g hg hkey, hother₂ g hg hkey⟩⟩
  join a₁ a₂ ha₁ ha₂ := by
    obtain ⟨b, hb, hR⟩ := h.join _ _ (hc.made_get hf hd₁ ha₁) (hc.made_get hf hd₂ ha₂)
    obtain ⟨a, ha, rfl, hother⟩ := hc.exists_put hf hd₁ ha₁ hb
    -- The second result is the first one with its own value in the slot.
    obtain ⟨a', ha', _, hother'⟩ := hc.exists_put hf hd₁ ha₁ (hc.made_get hf hd₂ ha₂)
    obtain rfl := ha'.unique ha₂
    refine ⟨a, ha, hR, fun g hg hkey => ⟨(hother g hg hkey).symm, ?_⟩⟩
    rw [hother' g hg hkey, hother g hg hkey]

end Slot

/-! ### Lists and options -/

section Contained

variable {α β : Type} [Fieldwise β] {v v₁ v₂ : Value} {R : β → β → β → Prop}

/-- A value is decoded in one way at most. -/
theorem made_rightUnique : Relator.RightUnique (Made : Value → β → Prop) :=
  fun _ _ _ ha hb => ha.unique hb

theorem Item.distinct {i : Nat} {c : Value → Value} (hc : Item i c) (hd : (c v).Distinct) :
    v.Distinct := by
  obtain ⟨before, after, _⟩ := hc
  cases hd with
  | array h => exact h v (List.mem_append_right _ List.mem_cons_self)

/-- An item of a list can be decoded in two parts when it can by itself. -/
theorem Splits.item {i : Nat} {c : Value → Value} (hc : Item i c) (h : Splits Made R v v₁ v₂)
    {M : Value → List β → Prop}
    (hM : ∀ {values bs}, M (.array values) bs ↔ List.Forall₂ Made values bs) :
    Splits M (OnItem i R) (c v) (c v₁) (c v₂) := by
  obtain ⟨before, after, hi⟩ := hc
  constructor
  · intro bs hbs
    obtain ⟨before', b, after', rfl, hbefore, hb, hafter⟩ := forall₂_split (hM.1 hbs)
    obtain ⟨b₁, b₂, hb₁, hb₂, hR⟩ := h.split b hb
    refine ⟨before' ++ b₁ :: after', before' ++ b₂ :: after',
      hM.2 (List.rel_append hbefore (.cons hb₁ hafter)),
      hM.2 (List.rel_append hbefore (.cons hb₂ hafter)), ?_⟩
    exact ⟨before', after', b, b₁, b₂, hbefore.length_eq.symm.trans hi, rfl, rfl, rfl, hR⟩
  · intro bs₁ bs₂ hbs₁ hbs₂
    obtain ⟨before', b₁, after', rfl, hbefore, hb₁, hafter⟩ := forall₂_split (hM.1 hbs₁)
    obtain ⟨before'', b₂, after'', rfl, hbefore', hb₂, hafter'⟩ := forall₂_split (hM.1 hbs₂)
    obtain rfl : before' = before'' := List.right_unique_forall₂' made_rightUnique hbefore hbefore'
    obtain rfl : after' = after'' := List.right_unique_forall₂' made_rightUnique hafter hafter'
    obtain ⟨b, hb, hR⟩ := h.join b₁ b₂ hb₁ hb₂
    refine ⟨before' ++ b :: after', hM.2 (List.rel_append hbefore (.cons hb hafter)), ?_⟩
    exact ⟨before', after', b, b₁, b₂, hbefore.length_eq.symm.trans hi, rfl, rfl, rfl, hR⟩

/-- A record that may be absent, and is there, can be decoded in two parts when it can by itself. -/
theorem Splits.present (h : Splits Made R v v₁ v₂) {key : String} {get : α → Option β}
    (hv : v ≠ .null) (hv₁ : v₁ ≠ .null) (hv₂ : v₂ ≠ .null) :
    Splits (RecordField.present key get).From (OnSome R) v v₁ v₂ where
  split o ho := by
    obtain ⟨b, hb, rfl⟩ := (RecordField.from_present_iff hv).1 ho
    obtain ⟨b₁, b₂, hb₁, hb₂, hR⟩ := h.split b hb
    exact ⟨some b₁, some b₂, (RecordField.from_present_iff hv₁).2 ⟨b₁, hb₁, rfl⟩,
      (RecordField.from_present_iff hv₂).2 ⟨b₂, hb₂, rfl⟩, b, b₁, b₂, rfl, rfl, rfl, hR⟩
  join o₁ o₂ ho₁ ho₂ := by
    obtain ⟨b₁, hb₁, rfl⟩ := (RecordField.from_present_iff hv₁).1 ho₁
    obtain ⟨b₂, hb₂, rfl⟩ := (RecordField.from_present_iff hv₂).1 ho₂
    obtain ⟨b, hb, hR⟩ := h.join b₁ b₂ hb₁ hb₂
    exact ⟨some b, (RecordField.from_present_iff hv).2 ⟨b, hb, rfl⟩, b, b₁, b₂, rfl, rfl, rfl, hR⟩

end Contained

end Fieldwise

end DownloadReport

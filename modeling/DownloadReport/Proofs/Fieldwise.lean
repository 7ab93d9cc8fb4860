import DownloadReport.Proofs.Positions
import Mathlib.Data.List.Nodup

/-! Records that are decoded field by field. What becomes of a field depends on the member with its key
    alone, so the members of an object can be decoded in two parts: the whole is accepted just when
    both parts are, and each field is what the part with its key makes of it, or zero
    (`splits_object`). -/

namespace DownloadReport

open Json (Value Shape Fields FieldReads)

/-! ### Fields and records -/

/-- A field of a record: the key under which it is reported, the shape of what is reported, what counts
    as reported when the key is absent, and what is made of that. -/
structure RecordField (α : Type) where
  key : String
  {Raw Out : Type}
  get : α → Out
  shape : Shape Raw
  absent : Raw
  Makes : Raw → Out → Prop

namespace RecordField

variable {α : Type} (f : RecordField α)

/-- What a field is when the members of its record are `es`. -/
def Reads (es : List (String × Value)) (b : f.Out) : Prop :=
  ∃ raw, FieldReads es f.key f.shape (some f.absent) raw ∧ f.Makes raw b

/-- What a field is when it is reported as `v`. -/
def From (v : Value) (b : f.Out) : Prop := ∃ raw, f.shape.read v = .ok raw ∧ f.Makes raw b

variable {f} {es es' : List (String × Value)} {b : f.Out}

/-- Only the member with the key of a field counts. -/
theorem Reads.of_agree (h : f.Reads es b) (hagree : ∀ v, (f.key, v) ∈ es ↔ (f.key, v) ∈ es') :
    f.Reads es' b := by
  obtain ⟨raw, ⟨v, hv, hread⟩ | ⟨habsent, hraw⟩, hmakes⟩ := h
  · exact ⟨raw, .inl ⟨v, (hagree v).1 hv, hread⟩, hmakes⟩
  · refine ⟨raw, .inr ⟨fun hmem => habsent ?_, hraw⟩, hmakes⟩
    obtain ⟨⟨_, v⟩, hv, rfl⟩ := List.mem_map.1 hmem
    exact List.mem_map.2 ⟨_, (hagree v).2 hv, rfl⟩

/-- The order of the members does not count. -/
theorem Reads.perm (h : f.Reads es b) (hperm : es.Perm es') : f.Reads es' b :=
  h.of_agree fun _ => hperm.mem_iff

theorem reads_of_missing (hkey : f.key ∉ es.map Prod.fst) (hmakes : f.Makes f.absent b) :
    f.Reads es b :=
  ⟨f.absent, .inr ⟨hkey, rfl⟩, hmakes⟩

theorem reads_cons_iff {v : Value} (hkey : f.key ∉ es.map Prod.fst) :
    f.Reads ((f.key, v) :: es) b ↔ f.From v b := by
  constructor
  · rintro ⟨raw, ⟨w, hw, hread⟩ | ⟨habsent, _⟩, hmakes⟩
    · rcases List.mem_cons.1 hw with hw | hw
      · cases hw
        exact ⟨raw, hread, hmakes⟩
      · exact absurd (List.mem_map.2 ⟨_, hw, rfl⟩) hkey
    · exact absurd List.mem_cons_self habsent
  · rintro ⟨raw, hread, hmakes⟩
    exact ⟨raw, .inl ⟨v, List.mem_cons_self, hread⟩, hmakes⟩

theorem reads_cons_other {key : String} (hne : f.key ≠ key) (v w : Value) :
    f.Reads ((key, v) :: es) b → f.Reads ((key, w) :: es) b :=
  fun h => h.of_agree fun u => by simp [hne]

end RecordField

/-- Fields can have any values at once. -/
def Assembles {α : Type} (fields : List (RecordField α)) : Prop :=
  ∀ P : (f : RecordField α) → f.Out → Prop, (∀ f ∈ fields, ∃ b, P f b) →
    ∃ a, ∀ f ∈ fields, P f (f.get a)

/-- The reading of a record and what is made of it, taken together, are the reading of fields. -/
def ReadsFieldwise {ρ α : Type} (shape : Shape ρ) (Decodes : ρ → α → Prop)
    (fields : List (RecordField α)) : Prop :=
  ∃ name rawFields, shape = .record name rawFields ∧ rawFields.WellKeyed ∧
    rawFields.keys = fields.map RecordField.key ∧
    ∀ es a, (∃ raw, rawFields.Reads es raw ∧ Decodes raw a) ↔ ∀ f ∈ fields, f.Reads es (f.get a)

/-- A kind of record that is decoded field by field. -/
class Fieldwise (α : Type) where
  {Raw : Type}
  shape : Shape Raw
  Decodes : Raw → α → Prop
  /-- The record of which nothing is reported. -/
  zero : α
  fields : List (RecordField α)
  /-- There is nothing in a record but its fields. -/
  ext : ∀ {a b}, (∀ f ∈ fields, f.get a = f.get b) → a = b
  decodes_unique : ∀ {raw a b}, Decodes raw a → Decodes raw b → a = b
  makes_zero : ∀ f ∈ fields, f.Makes f.absent (f.get zero)
  assembles : Assembles fields
  readsFieldwise : ReadsFieldwise shape Decodes fields

namespace Fieldwise

variable {α : Type} [Fieldwise α]

/-- The keys of the fields in their order. -/
def keys (α : Type) [Fieldwise α] : List String := (@fields α _).map RecordField.key

/-- What is made of a value. -/
def Made (v : Value) (a : α) : Prop := ∃ raw, (@shape α _).readValue v = .ok raw ∧ Decodes raw a

theorem Made.unique {v : Value} {a b : α} (ha : Made v a) (hb : Made v b) : a = b := by
  obtain ⟨raw, hraw, ha⟩ := ha
  obtain ⟨raw', hraw', hb⟩ := hb
  obtain rfl : raw = raw' := Except.ok.inj (hraw.symm.trans hraw')
  exact decodes_unique ha hb

theorem nodup_keys : (keys α).Nodup := by
  obtain ⟨_, rawFields, _, hf, hkeys, _⟩ := @readsFieldwise α _
  rw [keys, ← hkeys]
  exact Json.nodup_keys hf

/-- No two fields of a record have the same key. -/
theorem eq_of_key_eq {f g : RecordField α} (hf : f ∈ fields) (hg : g ∈ fields)
    (hkey : f.key = g.key) : f = g :=
  List.inj_on_of_nodup_map nodup_keys hf hg hkey

/-- Records that have the same in one field and in all others are the same. -/
theorem ext_of_field {f : RecordField α} (hf : f ∈ fields) {a b : α} (hown : f.get a = f.get b)
    (hother : ∀ g ∈ fields, g.key ≠ f.key → g.get a = g.get b) : a = b := by
  refine ext fun g hg => ?_
  by_cases hkey : g.key = f.key
  · obtain rfl := eq_of_key_eq hg hf hkey
    exact hown
  · exact hother g hg hkey

/-- An object is decoded field by field. -/
theorem made_object_iff {ms : List (String × Value)} (hms : (ms.map Prod.fst).Nodup) {a : α} :
    Made (.object ms) a ↔ ∀ f ∈ fields, f.Reads ms (f.get a) := by
  obtain ⟨_, rawFields, hshape, hf, _, hreads⟩ := @readsFieldwise α _
  rw [← hreads, Made, hshape]
  exact exists_congr fun raw =>
    and_congr_left' (Json.readMembers_eq_ok_iff hf hms fun _ _ => rfl)

/-- A list is decoded as the object with its items under the keys of the fields. -/
theorem made_array_iff {items : List Value} {a : α} :
    Made (.array items) a ↔
      items.length ≤ (keys α).length ∧ ∀ f ∈ fields, f.Reads ((keys α).zip items) (f.get a) := by
  obtain ⟨_, rawFields, hshape, hf, hkeys, hreads⟩ := @readsFieldwise α _
  have hitems : ∀ raw, (@shape α _).readValue (.array items) = .ok raw ↔
      items.length ≤ (keys α).length ∧ rawFields.Reads ((keys α).zip items) raw := by
    intro raw
    rw [hshape, keys, ← hkeys, Json.length_keys]
    exact Json.read_record_list_iff hf
  simp only [Made, hitems, ← hreads, and_assoc, exists_and_left]

/-! ### Two parts of an object -/

/-- How the decoding of a whole object goes with the decodings of its parts: a field has the value that
    the part with its key gives it, or is zero; and a part has zero for what it lacks. -/
structure FieldJoins (f : RecordField α) (keys₁ keys₂ : List String) (a a₁ a₂ : α) : Prop where
  whole : f.get a =
    if f.key ∈ keys₁ then f.get a₁ else if f.key ∈ keys₂ then f.get a₂ else f.get zero
  first : f.get a₁ = if f.key ∈ keys₁ then f.get a else f.get zero
  second : f.get a₂ = if f.key ∈ keys₂ then f.get a else f.get zero

def Joins (keys₁ keys₂ : List String) (a a₁ a₂ : α) : Prop :=
  ∀ f ∈ fields, FieldJoins f keys₁ keys₂ a a₁ a₂

/-- A value is decoded just when two others are, and then the three results are related. -/
structure Splits {β : Type} (M : Value → β → Prop) (R : β → β → β → Prop) (v v₁ v₂ : Value) :
    Prop where
  split : ∀ b, M v b → ∃ b₁ b₂, M v₁ b₁ ∧ M v₂ b₂ ∧ R b b₁ b₂
  join : ∀ b₁ b₂, M v₁ b₁ → M v₂ b₂ → ∃ b, M v b ∧ R b b₁ b₂

section Object

variable {ms ms₁ ms₂ : List (String × Value)}

/-- When there is a value for each field, there is a record. -/
theorem exists_made (hms : (ms.map Prod.fst).Nodup) (Q : (f : RecordField α) → f.Out → Prop)
    (h : ∀ f ∈ fields, ∃ b, f.Reads ms b ∧ Q f b) :
    ∃ a, Made (.object ms) a ∧ ∀ f ∈ fields, Q f (f.get a) := by
  obtain ⟨a, ha⟩ := assembles _ h
  exact ⟨a, (made_object_iff hms).2 fun f hf => (ha f hf).1, fun f hf => (ha f hf).2⟩

/-- A field whose key is missing is zero. -/
theorem get_of_missing (hms : (ms.map Prod.fst).Nodup) {a : α} (ha : Made (.object ms) a)
    {f : RecordField α} (hf : f ∈ fields) (hkey : f.key ∉ ms.map Prod.fst) :
    f.get a = f.get zero := by
  have hvalues : ∀ g : RecordField α, g ∈ fields →
      ∃ b, g.Reads ms b ∧ (g.key ∉ ms.map Prod.fst → b = g.get zero) := by
    intro g hg
    by_cases hgkey : g.key ∈ ms.map Prod.fst
    · exact ⟨g.get a, (made_object_iff hms).1 ha g hg, fun h => absurd hgkey h⟩
    · exact ⟨g.get zero, RecordField.reads_of_missing hgkey (makes_zero g hg), fun _ => rfl⟩
  obtain ⟨b, hb, hzero⟩ := exists_made hms _ hvalues
  rw [ha.unique hb]
  exact hzero f hf hkey

theorem nodup_first (hperm : (ms₁ ++ ms₂).Perm ms) (hms : (ms.map Prod.fst).Nodup) :
    (ms₁.map Prod.fst).Nodup :=
  ((hperm.map Prod.fst).nodup_iff.2 hms).sublist (.map _ (List.sublist_append_left _ _))

/-- No key is in both parts. -/
theorem not_mem_second (hperm : (ms₁ ++ ms₂).Perm ms) (hms : (ms.map Prod.fst).Nodup) {key : String}
    (hkey : key ∈ ms₁.map Prod.fst) : key ∉ ms₂.map Prod.fst := by
  have hparts : ((ms₁ ++ ms₂).map Prod.fst).Nodup := (hperm.map Prod.fst).nodup_iff.2 hms
  rw [List.map_append, List.nodup_append] at hparts
  exact fun hmem => hparts.2.2 key hkey key hmem rfl

/-- The first part has the members with its keys. -/
theorem mem_first_iff (hperm : (ms₁ ++ ms₂).Perm ms) (hms : (ms.map Prod.fst).Nodup) {key : String}
    (hkey : key ∈ ms₁.map Prod.fst) (v : Value) : (key, v) ∈ ms ↔ (key, v) ∈ ms₁ := by
  rw [← hperm.mem_iff, List.mem_append]
  constructor
  · rintro (hv | hv)
    · exact hv
    · exact absurd (List.mem_map.2 ⟨_, hv, rfl⟩) (not_mem_second hperm hms hkey)
  · exact .inl

/-- When the whole is accepted, so is the first part. -/
theorem exists_first (hperm : (ms₁ ++ ms₂).Perm ms) (hms : (ms.map Prod.fst).Nodup) {a : α}
    (ha : Made (.object ms) a) : ∃ a₁ : α, Made (.object ms₁) a₁ := by
  have hvalues : ∀ f : RecordField α, f ∈ fields → ∃ b, f.Reads ms₁ b ∧ True := by
    intro f hf
    by_cases hkey : f.key ∈ ms₁.map Prod.fst
    · exact ⟨f.get a, ((made_object_iff hms).1 ha f hf).of_agree (mem_first_iff hperm hms hkey),
        trivial⟩
    · exact ⟨f.get zero, RecordField.reads_of_missing hkey (makes_zero f hf), trivial⟩
  obtain ⟨a₁, ha₁, _⟩ := exists_made (nodup_first hperm hms) _ hvalues
  exact ⟨a₁, ha₁⟩

/-- When both parts are accepted, so is the whole. -/
theorem exists_whole (hperm : (ms₁ ++ ms₂).Perm ms) (hms : (ms.map Prod.fst).Nodup) {a₁ a₂ : α}
    (h₁ : Made (.object ms₁) a₁) (h₂ : Made (.object ms₂) a₂) :
    ∃ a, Made (.object ms) a ∧ Joins (ms₁.map Prod.fst) (ms₂.map Prod.fst) a a₁ a₂ := by
  have hswap : (ms₂ ++ ms₁).Perm ms := List.perm_append_comm.trans hperm
  have hms₁ : (ms₁.map Prod.fst).Nodup := nodup_first hperm hms
  have hms₂ : (ms₂.map Prod.fst).Nodup := nodup_first hswap hms
  have hvalues : ∀ f : RecordField α, f ∈ fields → ∃ b, f.Reads ms b ∧
      b = if f.key ∈ ms₁.map Prod.fst then f.get a₁
        else if f.key ∈ ms₂.map Prod.fst then f.get a₂ else f.get zero := by
    intro f hf
    refine ⟨_, ?_, rfl⟩
    split_ifs with hkey₁ hkey₂
    · exact ((made_object_iff hms₁).1 h₁ f hf).of_agree fun v =>
        (mem_first_iff hperm hms hkey₁ v).symm
    · exact ((made_object_iff hms₂).1 h₂ f hf).of_agree fun v =>
        (mem_first_iff hswap hms hkey₂ v).symm
    · refine RecordField.reads_of_missing (fun hmem => ?_) (makes_zero f hf)
      rw [← (hperm.map Prod.fst).mem_iff, List.map_append, List.mem_append] at hmem
      exact hmem.elim hkey₁ hkey₂
  obtain ⟨a, ha, hwhole⟩ := exists_made hms _ hvalues
  refine ⟨a, ha, fun f hf => ⟨hwhole f hf, ?_, ?_⟩⟩
  · split_ifs with hkey
    · rw [hwhole f hf, if_pos hkey]
    · exact get_of_missing hms₁ h₁ hf hkey
  · split_ifs with hkey
    · rw [hwhole f hf, if_neg (not_mem_second hswap hms hkey), if_pos hkey]
    · exact get_of_missing hms₂ h₂ hf hkey

/-- The members of an object can be decoded in two parts. -/
theorem splits_object (hperm : (ms₁ ++ ms₂).Perm ms) (hms : (ms.map Prod.fst).Nodup) :
    Splits Made (@Joins α _ (ms₁.map Prod.fst) (ms₂.map Prod.fst)) (.object ms) (.object ms₁)
      (.object ms₂) where
  split a ha := by
    obtain ⟨a₁, h₁⟩ := exists_first hperm hms ha
    obtain ⟨a₂, h₂⟩ := exists_first (List.perm_append_comm.trans hperm) hms ha
    obtain ⟨a', ha', hjoins⟩ := exists_whole hperm hms h₁ h₂
    rw [ha.unique ha']
    exact ⟨a₁, a₂, h₁, h₂, hjoins⟩
  join _ _ h₁ h₂ := exists_whole hperm hms h₁ h₂

end Object

end Fieldwise

end DownloadReport

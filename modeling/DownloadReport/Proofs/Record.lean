import DownloadReport.Json.Shape
import DownloadReport.Proofs.Outcome

/-! Records, field by field. A reader fills the slots of a record in the order in which the members of an
    object come and passes over members that it does not know. When no key comes twice, the order
    makes no difference and unknown members do not matter: a record is read just when each of its
    fields can be had by itself, from the member with its key or else for being absent
    (`readMembers_eq_ok_iff`). -/

namespace DownloadReport.Json

/-- The keys of the fields in their order. -/
def Fields.keys : {α : Type} → Fields α → List String
  | _, .build _ => []
  | _, .field before key _ _ => before.keys ++ [key]

mutual
/-- No record within the shape has two fields with one key. -/
def Shape.WellKeyed : {α : Type} → Shape α → Prop
  | _, .string | _, .signed | _, .anything | _, .forms _ _ => True
  | _, .nullable s => s.WellKeyed
  | _, .list s => s.WellKeyed
  | _, .record _ fields => fields.WellKeyed
  | _, .refine s _ => s.WellKeyed
def Fields.WellKeyed : {α : Type} → Fields α → Prop
  | _, .build _ => True
  | _, .field before key s _ => before.WellKeyed ∧ key ∉ before.keys ∧ s.WellKeyed
end

/-- No two fields have the same key. -/
theorem nodup_keys : ∀ {α : Type} {f : Fields α}, f.WellKeyed → f.keys.Nodup
  | _, .build _, _ => .nil
  | _, .field before key s _, hf => by
    obtain ⟨hbefore, hkey, _⟩ : before.WellKeyed ∧ key ∉ before.keys ∧ s.WellKeyed := hf
    rw [Fields.keys, List.nodup_append]
    refine ⟨nodup_keys hbefore, by simp, fun k hk l hl heq => hkey ?_⟩
    rw [← List.mem_singleton.1 hl, ← heq]
    exact hk

variable {σ : Type} [Viewable σ]

/-- What a record is when its members are `es`: each field comes from the member with its key, or it
    has the value for being absent. -/
def Fields.Reads : {α : Type} → Fields α → List (String × σ) → α → Prop
  | _, .build a, _, b => b = a
  | _, .field before key s absent, es, a =>
    ∃ make b, before.Reads es make ∧ a = make b ∧
      ((∃ x, (key, x) ∈ es ∧ s.read x = .ok b) ∨ (key ∉ es.map Prod.fst ∧ absent = some b))

section Field

variable {α β : Type} {before : Fields (β → α)} {key : String} {s : Shape β} {es : List (String × σ)}
  {make : β → α} {b : β}

/-- A field that is there. -/
theorem Fields.Reads.present (h : before.Reads es make) {x : σ} (hx : (key, x) ∈ es)
    (hread : s.read x = .ok b) (absent : Option β) :
    (Fields.field before key s absent).Reads es (make b) :=
  ⟨make, b, h, rfl, .inl ⟨x, hx, hread⟩⟩

/-- A field that is not there, and has its value for that. -/
theorem Fields.Reads.missing (h : before.Reads es make) (hkey : key ∉ es.map Prod.fst)
    (s : Shape β) (b : β) : (Fields.field before key s (some b)).Reads es (make b) :=
  ⟨make, b, h, rfl, .inr ⟨hkey, rfl⟩⟩

end Field

/-- What one field is when the members of its record are `es`: it comes from the member with its key,
    or it has the value for being absent. -/
def FieldReads {β : Type} (es : List (String × σ)) (key : String) (s : Shape β) (absent : Option β)
    (b : β) : Prop :=
  (∃ x, (key, x) ∈ es ∧ s.read x = .ok b) ∨ (key ∉ es.map Prod.fst ∧ absent = some b)

/-- Something is true of a record just when it is true of its last field, behind those before it. -/
theorem exists_reads_field_iff {α β : Type} {before : Fields (β → α)} {key : String} {s : Shape β}
    {absent : Option β} {es : List (String × σ)} {P : α → Prop} :
    (∃ a, (Fields.field before key s absent).Reads es a ∧ P a) ↔
      ∃ make, before.Reads es make ∧ ∃ b, FieldReads es key s absent b ∧ P (make b) := by
  constructor
  · rintro ⟨_, ⟨make, b, hmake, rfl, hb⟩, hP⟩
    exact ⟨make, hmake, b, hb, hP⟩
  · rintro ⟨make, hmake, b, hb, hP⟩
    exact ⟨make b, ⟨make, b, hmake, rfl, hb⟩, hP⟩

theorem exists_reads_build_iff {α : Type} {a : α} {es : List (String × σ)} {P : α → Prop} :
    (∃ b, (Fields.build a).Reads es b ∧ P b) ↔ P a := by
  constructor
  · rintro ⟨_, rfl, hP⟩
    exact hP
  · exact fun hP => ⟨a, rfl, hP⟩

/-- Only the members with the keys of the fields count. -/
theorem Fields.Reads.of_agree : ∀ {α : Type} {f : Fields α} {es es' : List (String × σ)} {a : α},
    f.Reads es a → (∀ key ∈ f.keys, ∀ x, (key, x) ∈ es ↔ (key, x) ∈ es') → f.Reads es' a
  | _, .build _, _, _, _, h, _ => h
  | _, .field before key s absent, es, es', a, h, hagree => by
    obtain ⟨make, b, hmake, ha, hb⟩ := h
    have hkey : ∀ x, (key, x) ∈ es ↔ (key, x) ∈ es' :=
      hagree key (List.mem_append_right _ (List.mem_singleton.2 rfl))
    refine ⟨make, b, hmake.of_agree fun k hk => hagree k (List.mem_append_left _ hk), ha, ?_⟩
    rcases hb with ⟨x, hx, hread⟩ | ⟨habsent, hb⟩
    · exact .inl ⟨x, (hkey x).1 hx, hread⟩
    · refine .inr ⟨fun hmem => habsent ?_, hb⟩
      obtain ⟨⟨_, x⟩, hx, rfl⟩ := List.mem_map.1 hmem
      exact List.mem_map.2 ⟨_, (hkey x).2 hx, rfl⟩

/-- The order of the members does not count. -/
theorem Fields.Reads.perm {α : Type} {f : Fields α} {es es' : List (String × σ)} {a : α}
    (h : f.Reads es a) (hperm : es.Perm es') : f.Reads es' a :=
  h.of_agree fun _ _ _ => hperm.mem_iff

/-! ### What one member does to the slots -/

/-- The slots of a record with one more field, which has a slot of its own. -/
def Fields.slotsWith {α β : Type} {before : Fields (β → α)} {key : String} {s : Shape β}
    {absent : Option β} (earlier : before.Slots) (slot : Option β) :
    (Fields.field before key s absent).Slots := (earlier, slot)

@[simp] theorem slotsWith_inj {α β : Type} {before : Fields (β → α)} {key : String} {s : Shape β}
    {absent : Option β} {a b : before.Slots} {x y : Option β} :
    (Fields.slotsWith a x : (Fields.field before key s absent).Slots) = Fields.slotsWith b y ↔
      a = b ∧ x = y :=
  Prod.ext_iff

/-- A key has a slot just when it is the key of a field. -/
theorem put_eq_none_iff : ∀ {α : Type} (f : Fields α) (key : String) (x : Except Fault σ)
    (slots : f.Slots), f.put key x slots = none ↔ key ∉ f.keys
  | _, .build _, _, _, _ => by simp [Fields.put, Fields.keys]
  | _, @Fields.field _ β before k s absent, key, x, slots => by
    obtain ⟨earlier, slot⟩ : before.Slots × Option β := slots
    have hbefore := put_eq_none_iff before key x earlier
    by_cases hk : key = k
    · simp [Fields.put, Fields.keys, hk]
    · simp [Fields.put, Fields.keys, hk, hbefore]

/-- A member fills the slot of its key, or no slot if it is not known. -/
def Fields.step {α : Type} (f : Fields α) (key : String) (x : σ) (slots : f.Slots) :
    Except ReadError f.Slots :=
  (f.put key (.ok x) slots).getD (.ok slots)

theorem step_unknown {α : Type} {f : Fields α} {key : String} (hkey : key ∉ f.keys) (x : σ)
    (slots : f.Slots) : f.step key x slots = .ok slots := by
  rw [Fields.step, (put_eq_none_iff f key (.ok x) slots).2 hkey, Option.getD_none]

section Field

variable {α β : Type} (before : Fields (β → α)) {k : String} (s : Shape β) (absent : Option β)

/-- A member with the key of a field fills its slot. -/
theorem step_own (x : σ) (earlier : before.Slots) :
    (Fields.field before k s absent).step k x (Fields.slotsWith earlier none) =
      (s.read x).map fun b => Fields.slotsWith earlier (some b) := by
  simp only [Fields.step, Fields.put, Fields.slotsWith, if_true, liftFault, ok_bind]
  cases s.read x <;> rfl

/-- A member with another key leaves the slot of a field as it is. -/
theorem step_other {key : String} (hkey : key ≠ k) (x : σ) (earlier : before.Slots)
    (slot : Option β) :
    (Fields.field before k s absent).step key x (Fields.slotsWith earlier slot) =
      (before.step key x earlier).map fun earlier => Fields.slotsWith earlier slot := by
  simp only [Fields.step, Fields.put, Fields.slotsWith, if_neg hkey]
  cases before.put key (.ok x) earlier <;> rfl

end Field

/-! ### What all members do -/

/-- Fills the slots of a record with members, one after another. -/
def Fields.fill {α : Type} (f : Fields α) (es : List (String × σ)) (slots : f.Slots) :
    Except ReadError f.Slots :=
  readEntries (fun key y slots => f.put key y slots) (.ofList es) slots

theorem fill_nil {α : Type} (f : Fields α) (slots : f.Slots) :
    f.fill ([] : List (String × σ)) slots = .ok slots := rfl

theorem fill_cons {α : Type} (f : Fields α) (key : String) {x : σ} (hx : Viewable.skim x = .ok ())
    (es : List (String × σ)) (slots : f.Slots) :
    f.fill ((key, x) :: es) slots = f.step key x slots >>= f.fill es := by
  simp only [Fields.fill, Entries.ofList, readEntries, Fields.step]
  cases f.put key (.ok x) slots with
  | some filled => rfl
  | none =>
    show (do liftFault (Viewable.skim x); f.fill es slots) = f.fill es slots
    rw [hx]
    rfl

section Field

variable {α β : Type} (before : Fields (β → α)) {k : String} (s : Shape β) (absent : Option β)

/-- Members without the key of a field leave its slot as it is. -/
theorem fill_field_of_not_mem (slot : Option β) {es : List (String × σ)}
    (hskim : ∀ e ∈ es, Viewable.skim e.2 = .ok ()) (hk : k ∉ es.map Prod.fst)
    (earlier : before.Slots) :
    (Fields.field before k s absent).fill es (Fields.slotsWith earlier slot) =
      (before.fill es earlier).map fun earlier => Fields.slotsWith earlier slot := by
  induction es generalizing earlier with
  | nil => rfl
  | cons e es ih =>
    obtain ⟨key, x⟩ := e
    simp only [List.map_cons, List.mem_cons, not_or] at hk
    have hx : Viewable.skim x = .ok () := hskim (key, x) List.mem_cons_self
    rw [fill_cons _ key hx, fill_cons _ key hx, step_other before s absent (Ne.symm hk.1)]
    cases before.step key x earlier with
    | error e => rfl
    | ok earlier => exact ih (fun e he => hskim e (List.mem_cons_of_mem _ he)) hk.2 earlier

/-- A slot is filled from the member with its key, beside the slots of the fields before it. -/
theorem fill_field_eq_ok_iff (hbefore : k ∉ before.keys) {es : List (String × σ)}
    (hkeys : (es.map Prod.fst).Nodup) (hskim : ∀ e ∈ es, Viewable.skim e.2 = .ok ())
    {earlier earlier' : before.Slots} {slot : Option β} :
    (Fields.field before k s absent).fill es (Fields.slotsWith earlier none) =
        .ok (Fields.slotsWith earlier' slot) ↔
      before.fill es earlier = .ok earlier' ∧
        ((∃ x b, (k, x) ∈ es ∧ s.read x = .ok b ∧ slot = some b) ∨
          (k ∉ es.map Prod.fst ∧ slot = none)) := by
  induction es generalizing earlier with
  | nil => simp [fill_nil, eq_comm]
  | cons e es ih =>
    obtain ⟨key, x⟩ := e
    obtain ⟨hkey, hkeys⟩ := List.nodup_cons.1 hkeys
    have hx : Viewable.skim x = .ok () := hskim (key, x) List.mem_cons_self
    have hrest : ∀ e ∈ es, Viewable.skim e.2 = .ok () := fun e he =>
      hskim e (List.mem_cons_of_mem _ he)
    rw [fill_cons _ key hx, fill_cons _ key hx]
    by_cases hk : key = k
    · -- The member of the field itself: none of the others has its key, and no earlier field either.
      subst hk
      have hown : ∀ y, (key, y) ∈ (key, x) :: es ↔ y = x := fun y => by
        have hes : (key, y) ∉ es := fun hy => hkey (List.mem_map.2 ⟨_, hy, rfl⟩)
        simp [hes]
      rw [step_own, step_unknown hbefore, ok_bind]
      cases hread : s.read x with
      | error e => simp [Except.map, hown, hread]
      | ok b =>
        simp only [Except.map, ok_bind]
        rw [fill_field_of_not_mem before s absent (some b) hrest hkey]
        simp only [map_eq_ok_iff, slotsWith_inj, hown, List.map_cons, List.mem_cons,
          true_or, not_true, false_and, or_false]
        constructor
        · rintro ⟨_, hfill, rfl, rfl⟩
          exact ⟨hfill, x, b, rfl, hread, rfl⟩
        · rintro ⟨hfill, _, _, rfl, hread', rfl⟩
          cases hread.symm.trans hread'
          exact ⟨_, hfill, rfl, rfl⟩
    · -- A member of another field, or of none: the slot stays empty for now.
      have hother : ∀ y, (k, y) ∈ (key, x) :: es ↔ (k, y) ∈ es := fun y => by
        simp [Ne.symm hk]
      rw [step_other before s absent hk]
      cases before.step key x earlier with
      | error e => simp [Except.map]
      | ok earlier =>
        simp only [Except.map, ok_bind, ih hkeys hrest, hother, List.map_cons, List.mem_cons,
          Ne.symm hk, false_or]

end Field

/-! ### Reading -/

/-- A record without fields passes over all members. -/
theorem fill_build {α : Type} (b : α) {es : List (String × σ)}
    (hskim : ∀ e ∈ es, Viewable.skim e.2 = .ok ()) (slots : (Fields.build b).Slots) :
    (Fields.build b).fill es slots = .ok slots := by
  induction es with
  | nil => rfl
  | cons e es ih =>
    obtain ⟨key, x⟩ := e
    rw [fill_cons _ key (hskim (key, x) List.mem_cons_self), step_unknown (by simp [Fields.keys])]
    exact ih fun e he => hskim e (List.mem_cons_of_mem _ he)

/-- Reads the members of an object as a record. -/
def Fields.readMembers {α : Type} (f : Fields α) (es : List (String × σ)) : Except ReadError α :=
  f.fill es f.fresh >>= f.finish

/-- A field is finished behind those before it: its slot is filled, or it may be absent. -/
theorem finish_field_eq_ok_iff {α β : Type} {before : Fields (β → α)} {k : String} {s : Shape β}
    {absent : Option β} {earlier : before.Slots} {slot : Option β} {a : α} :
    (Fields.field before k s absent).finish (Fields.slotsWith earlier slot) = .ok a ↔
      ∃ make b, before.finish earlier = .ok make ∧ slot.or absent = some b ∧ a = make b := by
  simp only [Fields.finish, Fields.slotsWith, bind_eq_ok_iff]
  constructor
  · rintro ⟨make, hmake, h⟩
    cases hslot : slot.or absent with
    | none => simp [hslot] at h
    | some b =>
      simp only [hslot, Except.ok.injEq] at h
      exact ⟨make, b, hmake, rfl, h.symm⟩
  · rintro ⟨make, b, hmake, hslot, rfl⟩
    exact ⟨make, hmake, by simp [hslot]⟩

/-- A record is read just when its fields can be had one by one. -/
theorem readMembers_eq_ok_iff : ∀ {α : Type} {f : Fields α}, f.WellKeyed →
    ∀ {es : List (String × σ)}, (es.map Prod.fst).Nodup → (∀ e ∈ es, Viewable.skim e.2 = .ok ()) →
    ∀ {a : α}, f.readMembers es = .ok a ↔ f.Reads es a
  | _, .build b, _, es, _, hskim, a => by
    rw [Fields.readMembers, fill_build b hskim, ok_bind]
    simp [Fields.finish, Fields.Reads, eq_comm]
  | _, .field before k s absent, hf, es, hkeys, hskim, a => by
    obtain ⟨hbefore, hk, _⟩ : before.WellKeyed ∧ k ∉ before.keys ∧ s.WellKeyed := hf
    have ih := fun make => readMembers_eq_ok_iff (a := make) hbefore hkeys hskim
    simp only [Fields.readMembers, bind_eq_ok_iff] at ih ⊢
    constructor
    · rintro ⟨⟨earlier, slot⟩, hfill, hfinish⟩
      obtain ⟨hearlier, hslot⟩ := (fill_field_eq_ok_iff before s absent hk hkeys hskim).1 hfill
      obtain ⟨make, b, hmake, hor, rfl⟩ := finish_field_eq_ok_iff.1 hfinish
      refine ⟨make, b, (ih make).1 ⟨earlier, hearlier, hmake⟩, rfl, ?_⟩
      rcases hslot with ⟨x, b', hx, hread, rfl⟩ | ⟨habsent, rfl⟩
      · cases hor
        exact .inl ⟨x, hx, hread⟩
      · exact .inr ⟨habsent, hor⟩
    · rintro ⟨make, b, hmake, rfl, hb⟩
      obtain ⟨earlier, hearlier, hfinish⟩ := (ih make).2 hmake
      rcases hb with ⟨x, hx, hread⟩ | ⟨habsent, hor⟩
      · exact ⟨Fields.slotsWith earlier (some b),
          (fill_field_eq_ok_iff before s absent hk hkeys hskim).2
            ⟨hearlier, .inl ⟨x, b, hx, hread, rfl⟩⟩,
          finish_field_eq_ok_iff.2 ⟨make, b, hfinish, rfl, rfl⟩⟩
      · exact ⟨Fields.slotsWith earlier none,
          (fill_field_eq_ok_iff before s absent hk hkeys hskim).2
            ⟨hearlier, .inr ⟨habsent, rfl⟩⟩,
          finish_field_eq_ok_iff.2 ⟨make, b, hfinish, hor, rfl⟩⟩

theorem liftFault_eq_ok_iff {α : Type} {x : Except Fault α} {a : α} :
    liftFault x = .ok a ↔ x = .ok a := by
  cases x <;> simp [liftFault]

/-! ### Shapes within shapes -/

/-- What is made of something read is there when both the reading and the making succeed. -/
theorem read_refine_iff {α β : Type} {s : Shape α} {make : α → Except String β} {x : σ} {b : β} :
    (Shape.refine s make).read x = .ok b ↔ ∃ a, s.read x = .ok a ∧ make a = .ok b := by
  simp only [Shape.read, bind_eq_ok_iff]
  refine exists_congr fun a => and_congr_right fun _ => ?_
  cases make a <;> simp

/-- A string is read where one is seen. -/
theorem read_string_iff {x : σ} {s : String} :
    Shape.string.read x = .ok s ↔ Viewable.view x = .ok (.string s) := by
  simp only [Shape.read, bind_eq_ok_iff, liftFault_eq_ok_iff]
  constructor
  · rintro ⟨w, hw, h⟩
    cases w with
    | string _ => rw [hw, ← Except.ok.inj h]
    | null | bool _ | number _ | list _ | object _ => cases h
  · exact fun h => ⟨_, h, rfl⟩

/-- An integer with a sign is read of an integer that 64 bits with a sign can hold. -/
theorem read_signed_iff {x : σ} {n : Int64} :
    Shape.signed.read x = .ok n ↔
      ∃ fits, Viewable.view x = .ok (.number (.integer n.toInt fits)) := by
  have hlow := n.le_toInt
  have hhigh := n.toInt_lt
  simp only [Shape.read, bind_eq_ok_iff, liftFault_eq_ok_iff]
  constructor
  · rintro ⟨w, hw, hn⟩
    unfold readSigned at hn
    split at hn
    next k fits =>
      split at hn
      next hk =>
        cases hn
        rw [Int64.toInt_ofInt_of_le (by omega) (by omega)]
        exact ⟨fits, hw⟩
      next => exact nomatch hn
    next => exact nomatch hn
  · rintro ⟨fits, hview⟩
    refine ⟨_, hview, ?_⟩
    rw [readSigned, if_pos (by omega), Int64.ofInt_toInt]

/-- A value in one of several forms is read when its form is found. -/
theorem read_forms_iff {α : Type} {name : String} {pick : Value → Option α} {x : σ} {a : α} :
    (Shape.forms name pick).read x = .ok a ↔ ∃ v, Viewable.value x = .ok v ∧ pick v = some a := by
  simp only [Shape.read, bind_eq_ok_iff, liftFault_eq_ok_iff]
  refine exists_congr fun v => and_congr_right fun _ => ?_
  cases pick v <;> simp

/-- What may be null is read as such where null is seen, and else as if it could not be null. -/
theorem read_nullable_view_iff {α : Type} {s : Shape α} {x : σ} {a : Option α} :
    (Shape.nullable s).read x = .ok a ↔
      ∃ w, Viewable.view x = .ok w ∧
        ((w = .null ∧ a = none) ∨ (w ≠ .null ∧ ∃ b, s.read x = .ok b ∧ a = some b)) := by
  have hother : (s.read x).map some = .ok a ↔ ∃ b, s.read x = .ok b ∧ a = some b := by
    simp only [map_eq_ok_iff, @eq_comm _ a]
  rw [Shape.read]
  cases Viewable.view x with
  | error f => simp [liftFault]
  | ok w => cases w <;> simp [liftFault, hother, eq_comm]

/-- A text is read when its root is and nothing stands behind it. -/
theorem Shape.readText_eq_ok_iff {α : Type} {s : Shape α} {text : String} {a : α} :
    s.readText text = .ok a ↔
      s.read (⟨(Outline.of text).root, deepest⟩ : Place) = .ok a ∧
        (Outline.of text).surplus = false := by
  simp only [Shape.readText, bind_eq_ok_iff, pure_eq_ok_iff, Outline.checkEnd]
  cases (Outline.of text).surplus <;> simp [liftFault]

section Value

variable {α : Type} {s : Shape α}

/-- A value that may be null is null, or is read as if it could not be. -/
theorem read_nullable_iff {v : Value} {a : Option α} :
    (Shape.nullable s).read v = .ok a ↔
      (v = .null ∧ a = none) ∨ (v ≠ .null ∧ ∃ b, s.read v = .ok b ∧ a = some b) := by
  have hview : Viewable.view v = .ok v.view := rfl
  have hnull : v.view = .null ↔ v = .null := by cases v <;> simp [Value.view]
  simp only [read_nullable_view_iff, hview, Except.ok.injEq, exists_eq_left', ne_eq, hnull]

/-- A field that may be null is read of the value that its record has for it, if there is one. -/
theorem fieldReads_nullable_iff {ms : List (String × Value)} {key : String} {a : Option α} :
    FieldReads ms key (.nullable s) (some none) a ↔
      ∃ v, FieldReads ms key (.nullable .anything) (some none) v ∧
        Option.Rel (fun v a => s.read v = .ok a) v a := by
  constructor
  · rintro (⟨x, hx, hread⟩ | ⟨habsent, hnone⟩)
    · rcases read_nullable_iff.1 hread with ⟨rfl, rfl⟩ | ⟨hnull, b, hb, rfl⟩
      · exact ⟨none, .inl ⟨.null, hx, rfl⟩, .none⟩
      · have hsome : (Shape.nullable .anything).read x = .ok (some x) :=
          read_nullable_iff.2 (.inr ⟨hnull, x, rfl, rfl⟩)
        exact ⟨some x, .inl ⟨x, hx, hsome⟩, .some hb⟩
    · cases hnone
      exact ⟨none, .inr ⟨habsent, rfl⟩, .none⟩
  · rintro ⟨v, ⟨x, hx, hread⟩ | ⟨habsent, hnone⟩, hrel⟩
    · rcases read_nullable_iff.1 hread with ⟨rfl, rfl⟩ | ⟨hnull, y, hy, rfl⟩
      · cases hrel
        exact .inl ⟨.null, hx, rfl⟩
      · cases hy
        cases hrel with
        | some hb => exact .inl ⟨x, hx, read_nullable_iff.2 (.inr ⟨hnull, _, hb, rfl⟩)⟩
    · cases hnone
      cases hrel
      exact .inr ⟨habsent, rfl⟩

/-- A list is read item by item. -/
theorem read_list_iff {v : Value} {as : List α} :
    (Shape.list s).read v = .ok as ↔
      ∃ items, v = .array items ∧ List.Forall₂ (fun x a => s.read x = .ok a) items as := by
  have hitems : ∀ {items : List Value} {as : List α},
      readElements (fun x : Value => s.read x) (.ofList items) = .ok as ↔
        List.Forall₂ (fun x a => s.read x = .ok a) items as := by
    intro items
    induction items with
    | nil =>
      intro as
      rw [List.forall₂_nil_left_iff]
      show Except.ok [] = Except.ok as ↔ _
      rw [Except.ok.injEq, eq_comm]
    | cons x items ih =>
      intro as
      simp only [Elements.ofList, readElements, bind_eq_ok_iff, pure_eq_ok_iff, ih,
        List.forall₂_cons_left_iff]
      constructor
      · rintro ⟨a, ha, as, has, rfl⟩
        exact ⟨a, as, ha, has, rfl⟩
      · rintro ⟨a, as, ha, has, rfl⟩
        exact ⟨a, ha, as, has, rfl⟩
  cases v with
  | array items =>
    refine hitems.trans ⟨fun h => ⟨items, rfl, h⟩, ?_⟩
    rintro ⟨_, ⟨⟩, h⟩
    exact h
  | null | bool _ | number _ | string _ | object _ =>
    constructor
    · exact nofun
    · rintro ⟨_, ⟨⟩, _⟩

end Value

end DownloadReport.Json

import DownloadReport.Proofs.Denotation
import DownloadReport.Proofs.Record

/-! Two ways to one reading. A text can be read as a shape says while it is walked through, or made a
    value first and then read. When no object of the text repeats a key, both ways read the same
    (`Shape.read_agrees`), although they take the members of an object in different orders and one of
    them passes over what the other makes values of. The proof follows the shape: what both see at one
    place differs in the order of members only. -/

namespace DownloadReport.Json

/-- A place of a text stands for a value, and no object within it repeats a key. -/
structure Denotes (p : Place) (v : Value) : Prop where
  value : p.node.value p.room = .ok v
  distinct : p.node.distinctKeys = true

/-- Members of a text beside members of a value, one by one. -/
abbrev DenotesMembers : List (String × Place) → List (String × Value) → Prop :=
  List.Forall₂ fun e m => e.1 = m.1 ∧ Denotes e.2 m.2

/-- What is seen at a place of a text beside what is seen of its value. -/
inductive SameView : View Place → View Value → Prop where
  | null : SameView .null .null
  | bool (b : Bool) : SameView (.bool b) (.bool b)
  | number (n : Number) : SameView (.number n) (.number n)
  | string (s : String) : SameView (.string s) (.string s)
  | list {ps : List Place} {vs : List Value} (h : List.Forall₂ Denotes ps vs) :
      SameView (.list (.ofList ps)) (.list (.ofList vs))
  | object {es : List (String × Place)} {ms ns : List (String × Value)}
      (hkeys : (es.map Prod.fst).Nodup) (h : DenotesMembers es ms) (hperm : ms.Perm ns) :
      SameView (.object (.ofList es)) (.object (.ofList ns))

/-! ### What is seen -/

theorem elements_denote : ∀ {items : Items} {room : Nat} {vs : List Value},
    items.values room = .ok vs → items.distinctKeys = true →
    ∃ ps, items.elements room = .ofList ps ∧ List.Forall₂ Denotes ps vs
  | .stop _, _, _, h, _ => by
    obtain ⟨rfl, rfl⟩ := Items.values_stop.1 h
    exact ⟨[], rfl, .nil⟩
  | .item n rest, room, _, h, hd => by
    obtain ⟨v, ws, hv, hws, rfl⟩ := Items.values_item.1 h
    obtain ⟨hn, hrest⟩ := Bool.and_eq_true_iff.1 hd
    obtain ⟨ps, hps, hall⟩ := elements_denote hws hrest
    exact ⟨⟨n, room⟩ :: ps, by rw [Items.elements, hps]; rfl, .cons ⟨hv, hn⟩ hall⟩

theorem entries_denote : ∀ {members : Members} {room : Nat} {ms : List (String × Value)},
    members.values room = .ok ms → members.distinctKeys = true →
    ∃ es, members.entries room = .ofList es ∧ DenotesMembers es ms
  | .stop _, _, _, h, _ => by
    obtain ⟨rfl, rfl⟩ := Members.values_stop.1 h
    exact ⟨[], rfl, .nil⟩
  | .bareKey _ _, _, _, h, _ => (Members.values_bareKey h).elim
  | .member key n rest, room, _, h, hd => by
    obtain ⟨k, v, ns, hk, hv, hns, rfl⟩ := Members.values_member.1 h
    obtain ⟨hn, hrest⟩ := Bool.and_eq_true_iff.1 hd
    obtain ⟨es, hes, hall⟩ := entries_denote hns hrest
    refine ⟨(k, ⟨n, room⟩) :: es, ?_, .cons ⟨rfl, hv, hn⟩ hall⟩
    rw [Members.entries, Entries.ofKey, hk, hes]
    rfl

theorem DenotesMembers.keys {es : List (String × Place)} {ms : List (String × Value)}
    (h : DenotesMembers es ms) : es.map Prod.fst = ms.map Prod.fst := by
  induction h with
  | nil => rfl
  | cons hm _ ih => rw [List.map_cons, List.map_cons, hm.1, ih]

theorem Denotes.skim {p : Place} {v : Value} (h : Denotes p v) : Viewable.skim p = .ok () :=
  Node.skim_of_value h.value

/-- Null is seen where null stands. -/
theorem Place.view_null_iff {p : Place} : p.view = .ok .null ↔ p.node.value p.room = .ok .null := by
  obtain ⟨n, room⟩ := p
  cases n with
  | null => exact ⟨fun _ => rfl, fun _ => rfl⟩
  | number n | string s => simp [Place.view, Node.value, map_eq_ok_iff]
  | missing | stray | bool _ | brokenWord _ => simp [Place.view, Node.value]
  | list items => cases room <;> simp [Place.view, Node.value_list]
  | object members => cases room <;> simp [Place.view, Node.value_object]

/-- Something is seen where a value stands. -/
theorem Place.exists_view {p : Place} {v : Value} (h : p.node.value p.room = .ok v) :
    ∃ w, p.view = .ok w := by
  obtain ⟨n, room⟩ := p
  cases n with
  | null | bool b => exact ⟨_, rfl⟩
  | number n | string s =>
    obtain ⟨x, hx, _⟩ := map_eq_ok_iff.1 h
    exact ⟨_, map_eq_ok_iff.2 ⟨x, hx, rfl⟩⟩
  | list items => cases room <;> exact ⟨_, rfl⟩
  | object members => cases room <;> exact ⟨_, rfl⟩
  | missing | stray | brokenWord _ => simp [Node.value] at h

/-- A place that stands for a value is seen as the value is. -/
theorem Denotes.view {p : Place} {v : Value} (h : Denotes p v) :
    ∃ w w', Viewable.view p = .ok w ∧ Viewable.view v = .ok w' ∧ SameView w w' := by
  obtain ⟨node, room⟩ := p
  obtain ⟨hvalue, hdistinct⟩ := h
  suffices hplace : ∃ w, Place.view ⟨node, room⟩ = .ok w ∧ SameView w v.view by
    obtain ⟨w, hw, hsame⟩ := hplace
    exact ⟨w, v.view, hw, rfl, hsame⟩
  dsimp only at hvalue hdistinct
  cases node with
  | missing | stray | brokenWord _ => simp [Node.value] at hvalue
  | null => cases hvalue; exact ⟨_, rfl, .null⟩
  | bool b => cases hvalue; exact ⟨_, rfl, .bool b⟩
  | number n =>
    obtain ⟨x, hx, rfl⟩ := map_eq_ok_iff.1 hvalue
    exact ⟨.number x, by simp [Place.view, hx, Except.map], .number x⟩
  | string s =>
    obtain ⟨text, htext, rfl⟩ := map_eq_ok_iff.1 hvalue
    exact ⟨.string text, by simp [Place.view, htext, Except.map], .string text⟩
  | list items =>
    obtain ⟨r, vs, rfl, hvs, rfl⟩ := Node.value_list.1 hvalue
    obtain ⟨ps, hps, hall⟩ := elements_denote hvs hdistinct
    exact ⟨.list (.ofList ps), by simp [Place.view, hps], .list hall⟩
  | object members =>
    obtain ⟨r, ms, rfl, hms, rfl⟩ := Node.value_object.1 hvalue
    obtain ⟨hkeys, hmembers⟩ := Bool.and_eq_true_iff.1 hdistinct
    obtain ⟨es, hes, hall⟩ := entries_denote hms hmembers
    have hnodup : (ms.map Prod.fst).Nodup := by
      rw [Members.keys_of_values hms]
      exact of_decide_eq_true hkeys
    exact ⟨.object (.ofList es), by simp [Place.view, hes],
      .object (hall.keys ▸ hnodup) hall (sortMembers_perm hnodup).symm⟩

/-- A member of one side is there on the other. -/
theorem DenotesMembers.exists_right {es : List (String × Place)} {ms : List (String × Value)}
    (h : DenotesMembers es ms) {key : String} {p : Place} (hp : (key, p) ∈ es) :
    ∃ v, (key, v) ∈ ms ∧ Denotes p v := by
  obtain ⟨⟨_, v⟩, hv, rfl, hpv⟩ := exists_mem_right h hp
  exact ⟨v, hv, hpv⟩

theorem DenotesMembers.exists_left {es : List (String × Place)} {ms : List (String × Value)}
    (h : DenotesMembers es ms) {key : String} {v : Value} (hv : (key, v) ∈ ms) :
    ∃ p, (key, p) ∈ es ∧ Denotes p v := by
  obtain ⟨⟨_, p⟩, hp, rfl, hpv⟩ := exists_mem_left h hv
  exact ⟨p, hp, hpv⟩

/-! ### What is read -/

theorem readElements_agrees {α : Type} {s : Shape α} {ps : List Place} {vs : List Value}
    (h : List.Forall₂ (fun p v => Agree Eq (s.read p) (s.read v)) ps vs) :
    Agree Eq (readElements (fun p : Place => s.read p) (.ofList ps))
      (readElements (fun v : Value => s.read v) (.ofList vs)) := by
  induction h with
  | nil => exact .ok rfl
  | cons hread _ ih =>
    refine hread.bind ?_
    rintro a _ rfl
    refine ih.bind ?_
    rintro as _ rfl
    exact .ok rfl

theorem checkSurplus_agrees (fields : Nat) {ps : List Place} {vs : List Value}
    (h : List.Forall₂ Denotes ps vs) :
    Agree Eq (checkSurplus fields (.ofList ps)) (checkSurplus fields (.ofList vs)) := by
  cases h with
  | nil => exact .ok rfl
  | cons _ _ => exact .error _ _

mutual
/-- Walking through a text and reading its value come to the same. -/
theorem Shape.read_agrees : ∀ {α : Type} (s : Shape α), s.WellKeyed →
    ∀ {p : Place} {v : Value}, Denotes p v → Agree Eq (s.read p) (s.read v)
  | _, .string, _, p, v, h => by
    obtain ⟨w, w', hw, hw', hsame⟩ := h.view
    simp only [Shape.read, hw, hw', liftFault, ok_bind]
    cases hsame with
    | string s => exact .ok rfl
    | null | bool _ | number _ | list _ | object _ _ _ => exact .error _ _
  | _, .signed, _, p, v, h => by
    obtain ⟨w, w', hw, hw', hsame⟩ := h.view
    simp only [Shape.read, hw, hw', liftFault, ok_bind]
    cases hsame with
    | number n =>
      cases n with
      | float x => exact .error _ _
      | integer n fits =>
        simp only [readSigned]
        split
        · exact .ok rfl
        · exact .error _ _
    | null | bool _ | string _ | list _ | object _ _ _ => exact .error _ _
  | _, .anything, _, p, v, h => by
    have hp : Viewable.value p = .ok v := h.value
    have hv : Viewable.value v = .ok v := rfl
    simp only [Shape.read, hp, hv, liftFault]
    exact .ok rfl
  | _, .nullable s, hs, p, v, h => by
    have hread := Shape.read_agrees s hs h
    have hsome : Agree Eq ((s.read p).map some) ((s.read v).map some) :=
      hread.map fun a b hab => congrArg some hab
    obtain ⟨w, w', hw, hw', hsame⟩ := h.view
    simp only [Shape.read, hw, hw', liftFault, ok_bind]
    cases hsame with
    | null => exact .ok rfl
    | bool _ | number _ | string _ | list _ | object _ _ _ => exact hsome
  | _, .list s, hs, p, v, h => by
    obtain ⟨w, w', hw, hw', hsame⟩ := h.view
    simp only [Shape.read, hw, hw', liftFault, ok_bind]
    cases hsame with
    | list hall => exact readElements_agrees (hall.imp fun p v h => Shape.read_agrees s hs h)
    | null | bool _ | number _ | string _ | object _ _ _ => exact .error _ _
  | _, .record name fields, hs, p, v, h => by
    obtain ⟨w, w', hw, hw', hsame⟩ := h.view
    simp only [Shape.read, hw, hw', liftFault, ok_bind]
    cases hsame with
    | list hall =>
      refine (Fields.readList_agrees fields hs name fields.count hall).bind ?_
      rintro ⟨a, _⟩ ⟨_, _⟩ ⟨rfl, qs, ws, hrest, rfl, rfl⟩
      refine (checkSurplus_agrees fields.count hrest).bind ?_
      intro _ _ _
      exact .ok rfl
    | @object es ms ns hkeys hall hperm =>
      -- The text has the members in its own order and the value in that of their keys, so the
      -- slots are not filled in step; but what they are filled with is the same.
      refine agree_eq_iff.2 fun a => ?_
      have hvalues : (ns.map Prod.fst).Nodup :=
        (hperm.map Prod.fst).nodup_iff.1 (hall.keys ▸ hkeys)
      have hskim : ∀ e ∈ es, Viewable.skim e.2 = .ok () := fun e he => by
        obtain ⟨_, _, he⟩ := hall.exists_right he
        exact he.skim
      calc fields.readMembers es = .ok a
        _ ↔ fields.Reads es a := readMembers_eq_ok_iff hs hkeys hskim
        _ ↔ fields.Reads ms a := Fields.reads_iff fields hs hall
        _ ↔ fields.Reads ns a := ⟨fun h => h.perm hperm, fun h => h.perm hperm.symm⟩
        _ ↔ fields.readMembers ns = .ok a :=
          (readMembers_eq_ok_iff hs hvalues fun _ _ => rfl).symm
    | null | bool _ | number _ | string _ => exact .error _ _
  | _, .forms name pick, _, p, v, h => by
    have hp : Viewable.value p = .ok v := h.value
    have hv : Viewable.value v = .ok v := rfl
    simp only [Shape.read, hp, hv, liftFault, ok_bind]
    cases pick v with
    | some a => exact .ok rfl
    | none => exact .error _ _
  | _, .refine s make, hs, p, v, h => by
    refine (Shape.read_agrees s hs h).bind ?_
    rintro a _ rfl
    cases make a with
    | ok b => exact .ok rfl
    | error reason => exact .error _ _
/-- Both ways take the same fields off a list, and leave the same. -/
theorem Fields.readList_agrees : ∀ {α : Type} (f : Fields α), f.WellKeyed →
    ∀ (name : String) (total : Nat) {ps : List Place} {vs : List Value},
    List.Forall₂ Denotes ps vs →
    Agree (fun r r' => r.1 = r'.1 ∧ ∃ qs ws, List.Forall₂ Denotes qs ws ∧ r.2 = .ofList qs ∧
        r'.2 = .ofList ws)
      (f.readList name total (.ofList ps)) (f.readList name total (.ofList vs))
  | _, .build a, _, _, _, ps, vs, h => .ok ⟨rfl, ps, vs, h, rfl, rfl⟩
  | _, .field before key s absent, hf, name, total, ps, vs, h => by
    refine (Fields.readList_agrees before hf.1 name total h).bind ?_
    rintro ⟨make, _⟩ ⟨_, _⟩ ⟨rfl, qs, ws, hrest, rfl, rfl⟩
    cases hrest with
    | nil =>
      cases absent with
      | some b => exact .ok ⟨rfl, [], [], .nil, rfl, rfl⟩
      | none => exact .error _ _
    | cons hpv hrest =>
      refine (Shape.read_agrees s hf.2.2 hpv).bind ?_
      rintro b _ rfl
      exact .ok ⟨rfl, _, _, hrest, rfl, rfl⟩
/-- The members of a text are the same record as those of its value. -/
theorem Fields.reads_iff : ∀ {α : Type} (f : Fields α), f.WellKeyed →
    ∀ {es : List (String × Place)} {ms : List (String × Value)}, DenotesMembers es ms →
    ∀ {a : α}, f.Reads es a ↔ f.Reads ms a
  | _, .build _, _, _, _, _, _ => .rfl
  | _, .field before key s absent, hf, es, ms, h, a => by
    have hbefore := fun make => Fields.reads_iff before hf.1 h (a := make)
    have hread : ∀ {p v b}, Denotes p v → (s.read p = .ok b ↔ s.read v = .ok b) := fun hpv =>
      agree_eq_iff.1 (Shape.read_agrees s hf.2.2 hpv) _
    have hmember : ∀ b, (∃ p, (key, p) ∈ es ∧ s.read p = .ok b) ↔
        (∃ v, (key, v) ∈ ms ∧ s.read v = .ok b) := fun b => by
      constructor
      · rintro ⟨p, hp, hb⟩
        obtain ⟨v, hv, hpv⟩ := h.exists_right hp
        exact ⟨v, hv, (hread hpv).1 hb⟩
      · rintro ⟨v, hv, hb⟩
        obtain ⟨p, hp, hpv⟩ := h.exists_left hv
        exact ⟨p, hp, (hread hpv).2 hb⟩
    simp only [Fields.Reads, hbefore, hmember, h.keys]
end

/-- A text and its value are read alike. -/
theorem Shape.readText_agrees {α : Type} {s : Shape α} (hs : s.WellKeyed) {text : String}
    {v : Value} (hparse : Value.parse text = .ok v)
    (hdistinct : (Outline.of text).root.distinctKeys = true) :
    Agree Eq (s.readText text) (s.readValue v) := by
  obtain ⟨hvalue, hend⟩ := Value.parse_eq_ok_iff.1 hparse
  have hplace : Denotes ⟨(Outline.of text).root, deepest⟩ v := ⟨hvalue, hdistinct⟩
  have hread : s.readText text = s.read (⟨(Outline.of text).root, deepest⟩ : Place) := by
    simp only [Shape.readText, Outline.checkEnd, hend, Bool.false_eq_true, if_false, liftFault]
    exact bind_pure _
  rw [hread]
  exact s.read_agrees hs hplace

end DownloadReport.Json

import DownloadReport.Proofs.Record

/-! Records that are written as lists. The items stand for the fields by their positions, so a list is
    the same record as the object with the items under the keys of the fields
    (`read_record_list_iff`): the fields behind the last item are absent, and there are no items
    behind the last field. -/

namespace DownloadReport.Json

/-! ### Items under the keys of fields -/

theorem length_keys : ∀ {α : Type} (f : Fields α), f.keys.length = f.count
  | _, .build _ => rfl
  | _, .field before _ _ _ => by
    rw [Fields.keys, List.length_append, length_keys before]
    rfl

section Zip

variable {σ : Type} {keys : List String} {xs : List σ} {key : String}

/-- A key behind the last item has no item. -/
theorem zip_append_of_drop_nil (h : xs.drop keys.length = []) :
    (keys ++ [key]).zip xs = keys.zip xs := by
  induction keys generalizing xs with
  | nil =>
    obtain rfl : xs = [] := h
    rfl
  | cons k keys ih =>
    cases xs with
    | nil => rfl
    | cons x xs => exact congrArg ((k, x) :: ·) (ih h)

theorem zip_append_of_drop_cons {x : σ} {tail : List σ} (h : xs.drop keys.length = x :: tail) :
    (keys ++ [key]).zip xs = keys.zip xs ++ [(key, x)] := by
  induction keys generalizing xs with
  | nil =>
    obtain rfl : xs = x :: tail := h
    rfl
  | cons k keys ih =>
    cases xs with
    | nil => cases h
    | cons y xs => exact congrArg ((k, y) :: ·) (ih h)

theorem key_mem_of_zip {m : String × σ} (h : m ∈ keys.zip xs) : m.1 ∈ keys :=
  (List.of_mem_zip h).1

theorem not_mem_zip_keys (hkey : key ∉ keys) : key ∉ (keys.zip xs).map Prod.fst := by
  intro hmem
  obtain ⟨m, hm, rfl⟩ := List.mem_map.1 hmem
  exact hkey (key_mem_of_zip hm)

/-- Items under distinct keys repeat no key. -/
theorem nodup_zip_keys (h : keys.Nodup) : ((keys.zip xs).map Prod.fst).Nodup := by
  induction keys generalizing xs with
  | nil => exact .nil
  | cons k keys ih =>
    cases xs with
    | nil => exact .nil
    | cons x xs =>
      obtain ⟨hk, hkeys⟩ := List.nodup_cons.1 h
      exact List.nodup_cons.2 ⟨not_mem_zip_keys hk, ih hkeys⟩

end Zip

/-! ### Reading -/

variable {σ : Type} [Viewable σ]

/-- The field whose item comes last is read from it, and the others as without it. -/
theorem reads_append_iff {α β : Type} {before : Fields (β → α)} {key : String} {s : Shape β}
    {absent : Option β} (hkey : key ∉ before.keys) {es : List (String × σ)}
    (hes : key ∉ es.map Prod.fst) {x : σ} {a : α} :
    (Fields.field before key s absent).Reads (es ++ [(key, x)]) a ↔
      ∃ make b, before.Reads es make ∧ a = make b ∧ s.read x = .ok b := by
  have hother : ∀ k ∈ before.keys, ∀ y, (k, y) ∈ es ++ [(key, x)] ↔ (k, y) ∈ es := by
    intro k hk y
    have hne : k ≠ key := by
      rintro rfl
      exact hkey hk
    simp [hne]
  have hown : ∀ y, (key, y) ∈ es ++ [(key, x)] ↔ y = x := by
    intro y
    have hy : (key, y) ∉ es := fun hmem => hes (List.mem_map.2 ⟨_, hmem, rfl⟩)
    simp [hy]
  constructor
  · rintro ⟨make, b, hmake, ha, ⟨y, hy, hread⟩ | ⟨habsent, _⟩⟩
    · obtain rfl := (hown y).1 hy
      exact ⟨make, b, hmake.of_agree hother, ha, hread⟩
    · simp at habsent
  · rintro ⟨make, b, hmake, ha, hread⟩
    exact ⟨make, b, hmake.of_agree fun k hk y => (hother k hk y).symm, ha,
      .inl ⟨x, (hown x).2 rfl, hread⟩⟩

/-- A record takes as many items off a list as it has fields. -/
theorem readList_eq_ok_iff : ∀ {α : Type} {f : Fields α}, f.WellKeyed →
    ∀ {name : String} {total : Nat} {xs : List σ} {a : α} {rest : Elements σ},
    f.readList name total (.ofList xs) = .ok (a, rest) ↔
      f.Reads (f.keys.zip xs) a ∧ rest = .ofList (xs.drop f.count)
  | _, .build b, _, name, total, xs, a, rest => by
    simp [Fields.readList, Fields.Reads, Fields.count, eq_comm]
  | _, .field before key s absent, hf, name, total, xs, a, rest => by
    obtain ⟨hbefore, hkey, _⟩ : before.WellKeyed ∧ key ∉ before.keys ∧ s.WellKeyed := hf
    have ih : ∀ make rest, before.readList name total (.ofList xs) = .ok (make, rest) ↔
        before.Reads (before.keys.zip xs) make ∧ rest = .ofList (xs.drop before.count) :=
      fun make rest => readList_eq_ok_iff hbefore
    have hzip : key ∉ (before.keys.zip xs).map Prod.fst := not_mem_zip_keys hkey
    have hdrop : xs.drop before.keys.length = xs.drop before.count := by rw [length_keys]
    rw [Fields.readList, Fields.keys, Fields.count, ← List.drop_drop]
    simp only [bind_eq_ok_iff, Prod.exists, ih]
    cases hitems : xs.drop before.count with
    | nil =>
      rw [zip_append_of_drop_nil (hdrop.trans hitems)]
      constructor
      · rintro ⟨make, _, ⟨hmake, rfl⟩, hfield⟩
        cases absent with
        | none => cases hfield
        | some b =>
          cases hfield
          exact ⟨hmake.missing hzip s b, rfl⟩
      · rintro ⟨⟨make, b, hmake, rfl, ⟨x, hx, _⟩ | ⟨_, habsent⟩⟩, rfl⟩
        · exact absurd (List.mem_map.2 ⟨_, hx, rfl⟩) hzip
        · exact ⟨make, _, ⟨hmake, rfl⟩, by rw [habsent]; rfl⟩
    | cons x tail =>
      rw [zip_append_of_drop_cons (hdrop.trans hitems), reads_append_iff hkey hzip]
      constructor
      · rintro ⟨make, _, ⟨hmake, rfl⟩, hfield⟩
        obtain ⟨b, hread, hpure⟩ := bind_eq_ok_iff.1 hfield
        cases hpure
        exact ⟨⟨make, b, hmake, rfl, hread⟩, rfl⟩
      · rintro ⟨⟨make, b, hmake, rfl, hread⟩, rfl⟩
        refine ⟨make, _, ⟨hmake, rfl⟩, ?_⟩
        show (s.read x >>= fun b => .ok (make b, Elements.ofList tail)) = _
        rw [hread]
        rfl

/-- Nothing may be left of a list. -/
theorem checkSurplus_eq_ok_iff {fields : Nat} {xs : List σ} :
    checkSurplus fields (.ofList xs) = .ok () ↔ xs = [] := by
  cases xs with
  | nil => exact ⟨fun _ => rfl, fun _ => rfl⟩
  | cons x xs =>
    simp only [Elements.ofList, checkSurplus]
    cases Viewable.surplus σ (fields + 1 + (Elements.ofList xs).count) <;> simp

/-- Where a list is seen, a record is read as from the members that its items are under the keys of the
    fields. -/
theorem read_record_view_iff {α : Type} {name : String} {f : Fields α} (hf : f.WellKeyed) {x : σ}
    {xs : List σ} (hview : Viewable.view x = .ok (.list (.ofList xs))) {a : α} :
    (Shape.record name f).read x = .ok a ↔ xs.length ≤ f.count ∧ f.Reads (f.keys.zip xs) a := by
  simp only [Shape.read, hview, liftFault, ok_bind, bind_eq_ok_iff, Prod.exists,
    readList_eq_ok_iff hf]
  constructor
  · rintro ⟨b, _, ⟨hreads, rfl⟩, _, hsurplus, hpure⟩
    cases hpure
    exact ⟨List.drop_eq_nil_iff.1 (checkSurplus_eq_ok_iff.1 hsurplus), hreads⟩
  · rintro ⟨hlength, hreads⟩
    exact ⟨a, _, ⟨hreads, rfl⟩, (), checkSurplus_eq_ok_iff.2 (List.drop_eq_nil_iff.2 hlength), rfl⟩

/-- A list is read as the object with its items under the keys of the fields. -/
theorem read_record_list_iff {α : Type} {name : String} {f : Fields α} (hf : f.WellKeyed)
    {items : List Value} {a : α} :
    (Shape.record name f).read (Value.array items) = .ok a ↔
      items.length ≤ f.count ∧ f.Reads (f.keys.zip items) a :=
  read_record_view_iff hf rfl

end DownloadReport.Json

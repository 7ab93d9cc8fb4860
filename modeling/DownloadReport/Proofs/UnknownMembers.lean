import DownloadReport.Proofs.KeyOrder
import DownloadReport.Proofs.Positions

/-! Members that nobody knows. A shape says which records stand where in a document, and so where
    members can be added that no record has a field for (`Shape.Extends`). They are passed over: only
    known members fill the slots of a record (`fill_eq_of_known`), so an extended document is read as
    the document itself (`Shape.read_extended`). The proof follows the shape, once for both ways of
    reading. Walking through a text needs no more than that what was added is well formed
    (`stands_place`); a value has to be there before and after (`stands_value`). -/

namespace DownloadReport.Json

/-! ### Extended documents -/

/-- Lists of as many items that are related one by one; the relation may depend on the position. -/
inductive Items.Alike (R : Nat → Node → Node → Prop) : Nat → Items → Items → Prop where
  | stop (i : Nat) (s : ListStop) : Items.Alike R i (.stop s) (.stop s)
  | item {i : Nat} {n n' : Node} {rest rest' : Items} (hn : R i n n')
      (hrest : Items.Alike R (i + 1) rest rest') : Items.Alike R i (.item n rest) (.item n' rest')

/-- Members to which others were added that are not `known`, with related values of those that were
    there before. The keys denote texts. -/
inductive Members.Extended (R : String → Node → Node → Prop) (known : List String) :
    Members → Members → Prop where
  | stop (s : ObjectStop) : Members.Extended R known (.stop s) (.stop s)
  | kept {key : StringText} {k : String} {n n' : Node} {rest rest' : Members}
      (hk : key.decode = .ok k) (hn : R k n n') (hrest : Members.Extended R known rest rest') :
      Members.Extended R known (.member key n rest) (.member key n' rest')
  | added {key : StringText} {k : String} (n : Node) {rest rest' : Members}
      (hk : key.decode = .ok k) (hunknown : k ∉ known)
      (hrest : Members.Extended R known rest rest') :
      Members.Extended R known rest (.member key n rest')

mutual
/-- Documents that differ only in members that were added to records of the shape and that these have
    no field for. -/
def Shape.Extends : {α : Type} → Shape α → Node → Node → Prop
  | _, .string, n, n' | _, .signed, n, n' | _, .anything, n, n' | _, .forms _ _, n, n' => n = n'
  | _, .nullable s, n, n' => s.Extends n n'
  | _, .refine s _, n, n' => s.Extends n n'
  | _, .list s, n, n' => n = n' ∨ ∃ items items', n = .list items ∧ n' = .list items' ∧
      Items.Alike (fun _ m m' => s.Extends m m') 0 items items'
  | _, .record _ f, n, n' => n = n' ∨
      (∃ members members', n = .object members ∧ n' = .object members' ∧
        Members.Extended (fun key m m' => f.ExtendsAt key m m') f.keys members members') ∨
      ∃ items items', n = .list items ∧ n' = .list items' ∧
        Items.Alike (fun i m m' => m = m' ∨ ∃ key, f.keys[i]? = some key ∧ f.ExtendsAt key m m') 0
          items items'
/-- Values of a member of a record that differ in added members only. -/
def Fields.ExtendsAt : {α : Type} → Fields α → String → Node → Node → Prop
  | _, .build _, _, n, n' => n = n'
  | _, .field before k s _, key, n, n' =>
    if key = k then s.Extends n n' else before.ExtendsAt key n n'
end

mutual
theorem Shape.Extends.refl : ∀ {α : Type} (s : Shape α) (n : Node), s.Extends n n
  | _, .string, _ | _, .signed, _ | _, .anything, _ | _, .forms _ _, _ => rfl
  | _, .nullable s, n | _, .refine s _, n => Shape.Extends.refl s n
  | _, .list _, _ | _, .record _ _, _ => .inl rfl
theorem Fields.ExtendsAt.refl : ∀ {α : Type} (f : Fields α) (key : String) (n : Node),
    f.ExtendsAt key n n
  | _, .build _, _, _ => rfl
  | _, .field before k s _, key, n => by
    rw [Fields.ExtendsAt]
    split
    · exact Shape.Extends.refl s n
    · exact Fields.ExtendsAt.refl before key n
end

section Field

variable {α β : Type} {before : Fields (β → α)} {k key : String} {s : Shape β} {absent : Option β}
  {n n' : Node}

theorem Fields.ExtendsAt.own (h : s.Extends n n') :
    (Fields.field before k s absent).ExtendsAt k n n' := by
  rwa [Fields.ExtendsAt, if_pos rfl]

theorem Fields.ExtendsAt.earlier (hne : key ≠ k) (h : before.ExtendsAt key n n') :
    (Fields.field before k s absent).ExtendsAt key n n' := by
  rwa [Fields.ExtendsAt, if_neg hne]

end Field

/-! ### What a record reads -/

section Reading

variable {σ : Type} [Viewable σ]

/-- What stands at two places is read alike by the field of a key, if there is one. -/
def Fields.SameAt : {α : Type} → Fields α → String → σ → σ → Prop
  | _, .build _, _, _, _ => True
  | _, .field before k s _, key, x, y =>
    if key = k then s.read x = s.read y else before.SameAt key x y

theorem Fields.SameAt.refl : ∀ {α : Type} (f : Fields α) (key : String) (x : σ), f.SameAt key x x
  | _, .build _, _, _ => trivial
  | _, .field before k s _, key, x => by
    rw [Fields.SameAt]
    split
    · rfl
    · exact Fields.SameAt.refl before key x

theorem Fields.SameAt.put : ∀ {α : Type} {f : Fields α} {key : String} {x y : σ},
    f.SameAt key x y → ∀ slots, f.put key (.ok x) slots = f.put key (.ok y) slots
  | _, .build _, _, _, _, _, _ => rfl
  | _, @Fields.field _ β before k s _, key, x, y, h, slots => by
    obtain ⟨earlier, slot⟩ : before.Slots × Option β := slots
    rw [Fields.SameAt] at h
    split at h
    next hkey => simp only [Fields.put, if_pos hkey, liftFault, ok_bind, h]
    next hkey => simp only [Fields.put, if_neg hkey, Fields.SameAt.put h]

/-- Members with the same keys one by one, whose values a record reads alike. -/
abbrev Fields.SameMembers {α : Type} (f : Fields α) (es es' : List (String × σ)) : Prop :=
  List.Forall₂ (fun e e' => e.1 = e'.1 ∧ f.SameAt e.1 e.2 e'.2) es es'

/-- The members that a record has a field for. -/
def Fields.knownMembers {α : Type} (f : Fields α) (es : List (String × σ)) : List (String × σ) :=
  es.filter fun e => decide (e.1 ∈ f.keys)

section Known

variable {α : Type} {f : Fields α} {key : String} {es es' : List (String × σ)}

omit [Viewable σ] in
theorem knownMembers_of_mem (hkey : key ∈ f.keys) (x : σ) :
    f.knownMembers ((key, x) :: es) = (key, x) :: f.knownMembers es :=
  List.filter_cons_of_pos (by simpa using hkey)

omit [Viewable σ] in
theorem knownMembers_of_not_mem (hkey : key ∉ f.keys) (x : σ) :
    f.knownMembers ((key, x) :: es) = f.knownMembers es :=
  List.filter_cons_of_neg (by simpa using hkey)

/-- The other members fill no slot. -/
theorem fill_knownMembers (hskim : ∀ e ∈ es, Viewable.skim e.2 = .ok ()) (slots : f.Slots) :
    f.fill (f.knownMembers es) slots = f.fill es slots := by
  induction es generalizing slots with
  | nil => rfl
  | cons e es ih =>
    obtain ⟨key, x⟩ := e
    have hx : Viewable.skim x = .ok () := hskim (key, x) List.mem_cons_self
    have hrest := ih fun e he => hskim e (List.mem_cons_of_mem _ he)
    rw [fill_cons f key hx]
    by_cases hkey : key ∈ f.keys
    · rw [knownMembers_of_mem hkey, fill_cons f key hx]
      exact congrArg (f.step key x slots >>= ·) (funext hrest)
    · rw [knownMembers_of_not_mem hkey, hrest, step_unknown hkey, ok_bind]

theorem fill_eq_of_same (h : f.SameMembers es es') (hskim : ∀ e ∈ es, Viewable.skim e.2 = .ok ())
    (hskim' : ∀ e ∈ es', Viewable.skim e.2 = .ok ()) (slots : f.Slots) :
    f.fill es slots = f.fill es' slots := by
  induction h generalizing slots with
  | nil => rfl
  | @cons e e' es es' he _ ih =>
    obtain ⟨key, x⟩ := e
    obtain ⟨_, y⟩ := e'
    obtain ⟨rfl, hsame⟩ := he
    have hstep : f.step key x slots = f.step key y slots := by
      rw [Fields.step, Fields.step, hsame.put]
    have hrest := ih (fun e he => hskim e (List.mem_cons_of_mem _ he))
      (fun e he => hskim' e (List.mem_cons_of_mem _ he))
    rw [fill_cons f key (hskim _ List.mem_cons_self),
      fill_cons f key (hskim' _ List.mem_cons_self), hstep]
    exact congrArg (f.step key y slots >>= ·) (funext hrest)

/-- Only members that the record has a field for count. -/
theorem fill_eq_of_known (h : f.SameMembers (f.knownMembers es) (f.knownMembers es'))
    (hskim : ∀ e ∈ es, Viewable.skim e.2 = .ok ()) (hskim' : ∀ e ∈ es', Viewable.skim e.2 = .ok ())
    (slots : f.Slots) : f.fill es slots = f.fill es' slots := by
  have hknown : ∀ {es : List (String × σ)}, (∀ e ∈ es, Viewable.skim e.2 = .ok ()) →
      ∀ e ∈ f.knownMembers es, Viewable.skim e.2 = .ok () :=
    fun hall e he => hall e (List.mem_of_mem_filter he)
  calc f.fill es slots
    _ = f.fill (f.knownMembers es) slots := (fill_knownMembers hskim slots).symm
    _ = f.fill (f.knownMembers es') slots := fill_eq_of_same h (hknown hskim) (hknown hskim') slots
    _ = f.fill es' slots := fill_knownMembers hskim' slots

end Known

end Reading

/-- Items that are related one by one. -/
inductive Elements.Alike {σ : Type} (R : Nat → σ → σ → Prop) :
    Nat → Elements σ → Elements σ → Prop where
  | same (i : Nat) (e : Elements σ) : Elements.Alike R i e e
  | next {i : Nat} {x y : σ} {e e' : Elements σ} (hx : R i x y)
      (h : Elements.Alike R (i + 1) e e') : Elements.Alike R i (.next x e) (.next y e')

/-- Two readings of the same fields: both end with the same error, or both have the same result and
    leave items that are related one by one. -/
inductive Elements.LeftAlike {σ α : Type} (R : Nat → σ → σ → Prop) (i : Nat) :
    Except ReadError (α × Elements σ) → Except ReadError (α × Elements σ) → Prop where
  | error (e : ReadError) : Elements.LeftAlike R i (.error e) (.error e)
  | ok (a : α) {e e' : Elements σ} (h : Elements.Alike R i e e') :
      Elements.LeftAlike R i (.ok (a, e)) (.ok (a, e'))

section List

variable {σ α : Type} {R : Nat → σ → σ → Prop} {e e' : Elements σ} {i : Nat}

theorem Elements.LeftAlike.refl (x : Except ReadError (α × Elements σ)) :
    Elements.LeftAlike R i x x := by
  cases x with
  | error e => exact .error e
  | ok r => exact .ok r.1 (.same i r.2)

theorem readElements_alike {read : σ → Except ReadError α}
    (hR : ∀ i x y, R i x y → read x = read y) (h : Elements.Alike R i e e') :
    readElements read e = readElements read e' := by
  induction h with
  | same i e => rfl
  | next hx _ ih => rw [readElements, readElements, hR _ _ _ hx, ih]

theorem Elements.Alike.count (h : Elements.Alike R i e e') : e.count = e'.count := by
  induction h with
  | same i e => rfl
  | next _ _ ih => rw [Elements.count, Elements.count, ih]

variable [Viewable σ]

theorem checkSurplus_alike (fields : Nat) (h : Elements.Alike R i e e') :
    checkSurplus fields e = checkSurplus fields e' := by
  cases h with
  | same i e => rfl
  | next _ h => rw [checkSurplus, checkSurplus, h.count]

/-- The fields of a record that is written as a list are read alike when each item is by the field at
    its position. -/
theorem readList_alike : ∀ {α : Type} (f : Fields α), f.WellKeyed → ∀ (name : String) (total : Nat),
    (∀ i x y, R i x y → ∀ key, f.keys[i]? = some key → f.SameAt key x y) →
    Elements.Alike R 0 e e' →
    Elements.LeftAlike R f.count (f.readList name total e) (f.readList name total e')
  | _, .build a, _, _, _, _, h => .ok a h
  | _, .field before key s absent, hf, name, total, hR, h => by
    obtain ⟨hbefore, hkey, _⟩ : before.WellKeyed ∧ key ∉ before.keys ∧ s.WellKeyed := hf
    have hRbefore : ∀ i x y, R i x y → ∀ k, before.keys[i]? = some k → before.SameAt k x y := by
      intro i x y hxy k hk
      have hne : k ≠ key := by
        rintro rfl
        exact hkey (List.mem_of_getElem? hk)
      have hsame := hR i x y hxy k (by
        rw [Fields.keys, List.getElem?_append_left (List.getElem?_eq_some_iff.1 hk).1, hk])
      rwa [Fields.SameAt, if_neg hne] at hsame
    have hown : ∀ x y, R before.count x y → s.read x = s.read y := by
      intro x y hxy
      have hsame := hR before.count x y hxy key (by simp [Fields.keys, ← length_keys])
      rwa [Fields.SameAt, if_pos rfl] at hsame
    have ih := readList_alike before hbefore name total hRbefore h
    rw [Fields.readList, Fields.readList]
    generalize before.readList name total e = left at ih ⊢
    generalize before.readList name total e' = left' at ih ⊢
    cases ih with
    | error error => exact .error error
    | ok make halike =>
      cases halike with
      | same i e => exact .refl _
      | @next _ x y tail tail' hx htail =>
        simp only [ok_bind, hown x y hx]
        cases s.read y with
        | error error => exact .error error
        | ok b => exact .ok (make b) htail

end List

/-! ### What is read at a place -/

section Place

variable {σ α : Type} [Viewable σ] {x y : σ}

/-- What is not null is read as if it could not be null. -/
theorem read_nullable_eq {s : Shape α} {w w' : View σ} (hx : Viewable.view x = .ok w)
    (hy : Viewable.view y = .ok w') (hw : w ≠ .null) (hw' : w' ≠ .null) (h : s.read x = s.read y) :
    (Shape.nullable s).read x = (Shape.nullable s).read y := by
  simp only [Shape.read, hx, hy, liftFault, ok_bind]
  cases w with
  | null => exact absurd rfl hw
  | bool _ | number _ | string _ | list _ | object _ =>
    cases w' with
    | null => exact absurd rfl hw'
    | bool _ | number _ | string _ | list _ | object _ => exact congrArg (Except.map some) h

theorem read_list_eq {s : Shape α} {e e' : Elements σ} (hx : Viewable.view x = .ok (.list e))
    (hy : Viewable.view y = .ok (.list e'))
    (h : Elements.Alike (fun _ x y => s.read x = s.read y) 0 e e') :
    (Shape.list s).read x = (Shape.list s).read y := by
  simp only [Shape.read, hx, hy, liftFault, ok_bind]
  exact readElements_alike (fun _ _ _ h => h) h

variable {f : Fields α}

theorem read_record_eq_of_object {e e' : Entries σ} (hx : Viewable.view x = .ok (.object e))
    (hy : Viewable.view y = .ok (.object e'))
    (h : ∀ slots, readEntries (fun key y slots => f.put key y slots) e slots =
      readEntries (fun key y slots => f.put key y slots) e' slots) (name : String) :
    (Shape.record name f).read x = (Shape.record name f).read y := by
  simp only [Shape.read, hx, hy, liftFault, ok_bind, h]

theorem read_record_eq_of_list (hf : f.WellKeyed) {e e' : Elements σ}
    (hx : Viewable.view x = .ok (.list e)) (hy : Viewable.view y = .ok (.list e'))
    (h : Elements.Alike (fun i x y => ∀ key, f.keys[i]? = some key → f.SameAt key x y) 0 e e')
    (name : String) : (Shape.record name f).read x = (Shape.record name f).read y := by
  have hleft := readList_alike f hf name f.count (fun _ _ _ h => h) h
  simp only [Shape.read, hx, hy, liftFault, ok_bind]
  generalize f.readList name f.count e = left at hleft ⊢
  generalize f.readList name f.count e' = left' at hleft ⊢
  cases hleft with
  | error error => rfl
  | ok a halike => simp only [ok_bind, checkSurplus_alike f.count halike]

end Place

/-- An extended document is of the same kind. -/
theorem Shape.Extends.kind : ∀ {α : Type} {s : Shape α} {n n' : Node}, s.Extends n n' →
    n = n' ∨ (∃ items items', n = .list items ∧ n' = .list items') ∨
      ∃ members members', n = .object members ∧ n' = .object members'
  | _, .string, _, _, h | _, .signed, _, _, h | _, .anything, _, _, h | _, .forms _ _, _, _, h =>
    .inl h
  | _, .nullable s, _, _, h => Shape.Extends.kind (s := s) h
  | _, .refine s _, _, _, h => Shape.Extends.kind (s := s) h
  | _, .list _, _, _, h => by
    rcases h with h | ⟨items, items', h, h', _⟩
    · exact .inl h
    · exact .inr (.inl ⟨items, items', h, h'⟩)
  | _, .record _ _, _, _, h => by
    rcases h with h | ⟨members, members', h, h', _⟩ | ⟨items, items', h, h', _⟩
    · exact .inl h
    · exact .inr (.inr ⟨members, members', h, h'⟩)
    · exact .inr (.inl ⟨items, items', h, h'⟩)

/-! ### Reading an extended document -/

section Stands

variable {σ : Type} [Viewable σ]

/-- How outlines stand at the places that a reader sees, where `room` more lists and objects may be
    opened. Lists and objects are seen as such, and when they are related, so is what is seen of
    them. -/
structure Stands (At : Nat → Node → σ → Prop) : Prop where
  unique {room : Nat} {n : Node} {x y : σ} : At room n x → At room n y → x = y
  list {room : Nat} {items : Items} {x : σ} :
    At room (.list items) x → ∃ e, Viewable.view x = .ok (.list e)
  object {room : Nat} {members : Members} {x : σ} :
    At room (.object members) x → ∃ e, Viewable.view x = .ok (.object e)
  items {room : Nat} {items items' : Items} {x y : σ} {e e' : Elements σ}
    {R : Nat → Node → Node → Prop} {S : Nat → σ → σ → Prop} :
    At room (.list items) x → At room (.list items') y → Viewable.view x = .ok (.list e) →
    Viewable.view y = .ok (.list e') → items.Alike R 0 items' →
    (∀ room i n n' x y, R i n n' → At room n x → At room n' y → S i x y) → e.Alike S 0 e'
  members {room : Nat} {members members' : Members} {x y : σ} {e e' : Entries σ} {α : Type}
    {f : Fields α} {R : String → Node → Node → Prop} :
    At room (.object members) x → At room (.object members') y → Viewable.view x = .ok (.object e) →
    Viewable.view y = .ok (.object e') → members.Extended R f.keys members' →
    (∀ room key n n' x y, R key n n' → At room n x → At room n' y → f.SameAt key x y) →
    ∀ slots, readEntries (fun key y slots => f.put key y slots) e slots =
      readEntries (fun key y slots => f.put key y slots) e' slots

variable {At : Nat → Node → σ → Prop}

mutual
/-- A reader passes over the members that were added. -/
theorem Shape.read_extended (hAt : Stands At) : ∀ {α : Type} (s : Shape α), s.WellKeyed →
    ∀ {n n' : Node}, s.Extends n n' → ∀ {room : Nat} {x y : σ}, At room n x → At room n' y →
    s.read x = s.read y
  | _, .string, _, n, n', h, _, _, _, hx, hy | _, .signed, _, n, n', h, _, _, _, hx, hy
  | _, .anything, _, n, n', h, _, _, _, hx, hy | _, .forms _ _, _, n, n', h, _, _, _, hx, hy => by
    obtain rfl : n = n' := h
    rw [hAt.unique hx hy]
  | _, .nullable s, hs, n, n', h, room, x, y, hx, hy => by
    have hread := Shape.read_extended hAt s hs h hx hy
    rcases Shape.Extends.kind h with rfl | ⟨items, items', rfl, rfl⟩ | ⟨members, members', rfl, rfl⟩
    · rw [hAt.unique hx hy]
    · obtain ⟨e, he⟩ := hAt.list hx
      obtain ⟨e', he'⟩ := hAt.list hy
      exact read_nullable_eq he he' nofun nofun hread
    · obtain ⟨e, he⟩ := hAt.object hx
      obtain ⟨e', he'⟩ := hAt.object hy
      exact read_nullable_eq he he' nofun nofun hread
  | _, .refine s make, hs, n, n', h, room, x, y, hx, hy => by
    rw [Shape.read, Shape.read, Shape.read_extended hAt s hs h hx hy]
  | _, .list s, hs, n, n', h, room, x, y, hx, hy => by
    rcases h with rfl | ⟨items, items', rfl, rfl, halike⟩
    · rw [hAt.unique hx hy]
    · obtain ⟨e, he⟩ := hAt.list hx
      obtain ⟨e', he'⟩ := hAt.list hy
      exact read_list_eq he he' (hAt.items hx hy he he' halike
        fun _ _ _ _ _ _ h hx hy => Shape.read_extended hAt s hs h hx hy)
  | _, .record name f, hf, n, n', h, room, x, y, hx, hy => by
    rcases h with rfl | ⟨members, members', rfl, rfl, hextended⟩ | ⟨items, items', rfl, rfl, halike⟩
    · rw [hAt.unique hx hy]
    · obtain ⟨e, he⟩ := hAt.object hx
      obtain ⟨e', he'⟩ := hAt.object hy
      exact read_record_eq_of_object he he' (hAt.members hx hy he he' hextended
        fun _ _ _ _ _ _ h hx hy => Fields.sameAt_extended hAt f hf h hx hy) name
    · obtain ⟨e, he⟩ := hAt.list hx
      obtain ⟨e', he'⟩ := hAt.list hy
      refine read_record_eq_of_list hf he he' (hAt.items hx hy he he' halike ?_) name
      rintro room i m m' x y (rfl | ⟨k, hk, h⟩) hx hy key hkey
      · rw [hAt.unique hx hy]
        exact Fields.SameAt.refl f key y
      · cases hk.symm.trans hkey
        exact Fields.sameAt_extended hAt f hf h hx hy
theorem Fields.sameAt_extended (hAt : Stands At) : ∀ {α : Type} (f : Fields α), f.WellKeyed →
    ∀ {key : String} {n n' : Node}, f.ExtendsAt key n n' → ∀ {room : Nat} {x y : σ},
    At room n x → At room n' y → f.SameAt key x y
  | _, .build _, _, _, _, _, _, _, _, _, _, _ => trivial
  | _, .field before k s _, hf, key, n, n', h, _, _, _, hx, hy => by
    rw [Fields.ExtendsAt] at h
    rw [Fields.SameAt]
    split at h
    next hkey =>
      rw [if_pos hkey]
      exact Shape.read_extended hAt s hf.2.2 h hx hy
    next hkey =>
      rw [if_neg hkey]
      exact Fields.sameAt_extended hAt before hf.1 h hx hy
end

end Stands

/-! ### Walking through an extended text -/

section Walk

variable {room : Nat}

theorem Items.Alike.elements {R : Nat → Node → Node → Prop} {S : Nat → Place → Place → Prop}
    (hRS : ∀ i n n', R i n n' → n.skim = .ok () → n'.skim = .ok () → S i ⟨n, room⟩ ⟨n', room⟩)
    {i : Nat} {items items' : Items} (h : items.Alike R i items') (hskim : items.skim = .ok ())
    (hskim' : items'.skim = .ok ()) :
    (items.elements room).Alike S i (items'.elements room) := by
  induction h with
  | stop i s => exact .same i _
  | item hn _ ih =>
    obtain ⟨hskimN, hskimRest⟩ := Items.skim_item.1 hskim
    obtain ⟨hskimN', hskimRest'⟩ := Items.skim_item.1 hskim'
    exact .next (hRS _ _ _ hn hskimN hskimN') (ih hskimRest hskimRest')

theorem Members.Extended.entries {α : Type} {f : Fields α} {R : String → Node → Node → Prop}
    {members members' : Members}
    (hR : ∀ key n n', R key n n' → n.skim = .ok () → n'.skim = .ok () →
      f.SameAt key (⟨n, room⟩ : Place) ⟨n', room⟩)
    (h : members.Extended R f.keys members') (hskim : members.skim = .ok ())
    (hskim' : members'.skim = .ok ()) :
    ∃ es es', members.entries room = .ofList es ∧ members'.entries room = .ofList es' ∧
      (∀ e ∈ es, Viewable.skim e.2 = .ok ()) ∧ (∀ e ∈ es', Viewable.skim e.2 = .ok ()) ∧
      f.SameMembers (f.knownMembers es) (f.knownMembers es') := by
  induction h with
  | stop s =>
    obtain rfl := ObjectStop.skim_stop.1 hskim
    exact ⟨[], [], rfl, rfl, List.forall_mem_nil _, List.forall_mem_nil _, .nil⟩
  | @kept key k n n' rest rest' hk hn _ ih =>
    obtain ⟨_, hskimN, hrest⟩ := Members.skim_member.1 hskim
    obtain ⟨_, hskimN', hrest'⟩ := Members.skim_member.1 hskim'
    obtain ⟨es, es', hes, hes', hall, hall', hsame⟩ := ih hrest hrest'
    refine ⟨(k, ⟨n, room⟩) :: es, (k, ⟨n', room⟩) :: es', ?_, ?_,
      List.forall_mem_cons.2 ⟨hskimN, hall⟩, List.forall_mem_cons.2 ⟨hskimN', hall'⟩, ?_⟩
    · rw [Members.entries, Entries.ofKey, hk, hes]
      rfl
    · rw [Members.entries, Entries.ofKey, hk, hes']
      rfl
    · by_cases hkey : k ∈ f.keys
      · rw [knownMembers_of_mem hkey, knownMembers_of_mem hkey]
        exact .cons ⟨rfl, hR k n n' hn hskimN hskimN'⟩ hsame
      · rw [knownMembers_of_not_mem hkey, knownMembers_of_not_mem hkey]
        exact hsame
  | @added key k n rest rest' hk hunknown _ ih =>
    obtain ⟨_, hskimN, hrest'⟩ := Members.skim_member.1 hskim'
    obtain ⟨es, es', hes, hes', hall, hall', hsame⟩ := ih hskim hrest'
    refine ⟨es, (k, ⟨n, room⟩) :: es', hes, ?_, hall,
      List.forall_mem_cons.2 ⟨hskimN, hall'⟩, ?_⟩
    · rw [Members.entries, Entries.ofKey, hk, hes']
      rfl
    · rw [knownMembers_of_not_mem hunknown]
      exact hsame

/-- Well-formed outlines at places of a text, whatever stands in them and however deep. -/
theorem stands_place : Stands fun room n (p : Place) => p = ⟨n, room⟩ ∧ n.skim = .ok () where
  unique := by
    rintro room n x y ⟨rfl, _⟩ ⟨rfl, _⟩
    rfl
  list := by
    rintro room items x ⟨rfl, _⟩
    cases room <;> exact ⟨_, rfl⟩
  object := by
    rintro room members x ⟨rfl, _⟩
    cases room <;> exact ⟨_, rfl⟩
  items := by
    rintro room items items' x y e e' R S ⟨rfl, hskim⟩ ⟨rfl, hskim'⟩ hx hy h hRS
    cases room with
    | zero =>
      cases hx
      cases hy
      exact .same 0 _
    | succ room =>
      cases hx
      cases hy
      exact h.elements (fun i n n' hn hs hs' => hRS room i n n' _ _ hn ⟨rfl, hs⟩ ⟨rfl, hs'⟩)
        hskim hskim'
  members := by
    rintro room members members' x y e e' α f R ⟨rfl, hskim⟩ ⟨rfl, hskim'⟩ hx hy h hR slots
    cases room with
    | zero =>
      cases hx
      cases hy
      rfl
    | succ room =>
      cases hx
      cases hy
      obtain ⟨es, es', hes, hes', hall, hall', hsame⟩ := h.entries
        (fun key n n' hn hs hs' => hR room key n n' _ _ hn ⟨rfl, hs⟩ ⟨rfl, hs'⟩) hskim hskim'
      rw [hes, hes']
      exact fill_eq_of_known hsame hall hall' slots

end Walk

/-! ### The value of an extended text -/

section Values

variable {room : Nat}

theorem Items.Alike.values {R : Nat → Node → Node → Prop} {S : Nat → Value → Value → Prop}
    (hRS : ∀ i n n' v v', R i n n' → n.value room = .ok v → n'.value room = .ok v' → S i v v')
    {i : Nat} {items items' : Items} (h : items.Alike R i items') {vs vs' : List Value}
    (hvs : items.values room = .ok vs) (hvs' : items'.values room = .ok vs') :
    (Elements.ofList vs).Alike S i (.ofList vs') := by
  induction h generalizing vs vs' with
  | stop i s =>
    obtain ⟨_, rfl⟩ := Items.values_stop.1 hvs
    obtain ⟨_, rfl⟩ := Items.values_stop.1 hvs'
    exact .same i _
  | item hn _ ih =>
    obtain ⟨v, ws, hv, hws, rfl⟩ := Items.values_item.1 hvs
    obtain ⟨v', ws', hv', hws', rfl⟩ := Items.values_item.1 hvs'
    exact .next (hRS _ _ _ _ _ hn hv hv') (ih hws hws')

variable {α : Type} {f : Fields α} {ms ms' : List (String × Value)}

theorem Members.Extended.values {R : String → Node → Node → Prop} {members members' : Members}
    (hR : ∀ key n n' v v', R key n n' → n.value room = .ok v → n'.value room = .ok v' →
      f.SameAt key v v')
    (h : members.Extended R f.keys members') (hms : members.values room = .ok ms)
    (hms' : members'.values room = .ok ms') :
    f.SameMembers (f.knownMembers ms) (f.knownMembers ms') := by
  induction h generalizing ms ms' with
  | stop s =>
    obtain ⟨_, rfl⟩ := Members.values_stop.1 hms
    obtain ⟨_, rfl⟩ := Members.values_stop.1 hms'
    exact .nil
  | @kept key k n n' rest rest' hk hn _ ih =>
    obtain ⟨_, v, ns, hkey, hv, hns, rfl⟩ := Members.values_member.1 hms
    obtain ⟨_, v', ns', hkey', hv', hns', rfl⟩ := Members.values_member.1 hms'
    cases hk.symm.trans hkey
    cases hk.symm.trans hkey'
    by_cases hknown : k ∈ f.keys
    · rw [knownMembers_of_mem hknown, knownMembers_of_mem hknown]
      exact .cons ⟨rfl, hR _ _ _ _ _ hn hv hv'⟩ (ih hns hns')
    · rw [knownMembers_of_not_mem hknown, knownMembers_of_not_mem hknown]
      exact ih hns hns'
  | added n hk hunknown _ ih =>
    obtain ⟨k, v, ns', hkey, _, hns', rfl⟩ := Members.values_member.1 hms'
    cases hk.symm.trans hkey
    rw [knownMembers_of_not_mem hunknown]
    exact ih hms hns'

/-- The known members come in the order of their keys, whatever stands between them. -/
theorem sameMembers_sortMembers (h : f.SameMembers (f.knownMembers ms) (f.knownMembers ms')) :
    f.SameMembers (f.knownMembers (sortMembers ms)) (f.knownMembers (sortMembers ms')) := by
  have hsort : ∀ ms, f.knownMembers (sortMembers ms) = sortMembers (f.knownMembers ms) :=
    filter_sortMembers fun key => decide (key ∈ f.keys)
  rw [hsort, hsort]
  exact keywise_sortMembers h

/-- Outlines and the values that they have. -/
theorem stands_value : Stands fun room n (v : Value) => n.value room = .ok v where
  unique := by
    rintro room n v v' hv hv'
    exact Except.ok.inj (hv.symm.trans hv')
  list := by
    rintro room items v hv
    obtain ⟨_, vs, _, _, rfl⟩ := Node.value_list.1 hv
    exact ⟨_, rfl⟩
  object := by
    rintro room members v hv
    obtain ⟨_, ms, _, _, rfl⟩ := Node.value_object.1 hv
    exact ⟨_, rfl⟩
  items := by
    rintro room items items' v v' e e' R S hv hv' hx hy h hRS
    obtain ⟨r, vs, rfl, hvs, rfl⟩ := Node.value_list.1 hv
    obtain ⟨_, vs', ⟨⟩, hvs', rfl⟩ := Node.value_list.1 hv'
    cases hx
    cases hy
    exact h.values (hRS r) hvs hvs'
  members := by
    rintro room members members' v v' e e' α f R hv hv' hx hy h hR slots
    obtain ⟨r, ms, rfl, hms, rfl⟩ := Node.value_object.1 hv
    obtain ⟨_, ms', ⟨⟩, hms', rfl⟩ := Node.value_object.1 hv'
    cases hx
    cases hy
    have hknown := sameMembers_sortMembers (h.values (hR r) hms hms')
    exact fill_eq_of_known hknown (fun _ _ => rfl) (fun _ _ => rfl) slots

end Values

/-! ### Keys -/

/-- Members that were there stay, and those that are added are not known. -/
theorem Members.Extended.mem_keys {R : String → Node → Node → Prop} {known : List String}
    {members members' : Members} (h : Members.Extended R known members members') {key : String} :
    (key ∈ members.keys → key ∈ members'.keys) ∧
      (key ∈ known → key ∈ members'.keys → key ∈ members.keys) := by
  induction h with
  | stop s => exact ⟨id, fun _ => id⟩
  | kept hk _ _ ih =>
    simp only [Members.keys, hk, List.mem_cons]
    exact ⟨Or.imp_right ih.1, fun hknown => Or.imp_right (ih.2 hknown)⟩
  | added n hk hunknown _ ih =>
    simp only [Members.keys, hk, List.mem_cons]
    refine ⟨fun h => .inr (ih.1 h), fun hknown h => ih.2 hknown (h.resolve_left ?_)⟩
    rintro rfl
    exact hunknown hknown

end DownloadReport.Json

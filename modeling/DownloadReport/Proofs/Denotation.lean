import DownloadReport.Proofs.Grammar
import Mathlib.Data.List.Permutation

/-! What outlines denote. When an outline has a value, it is well formed and nothing in it is nested
    deeper than there is room for; more room makes no difference then. The members of an object
    value are those of the text in another order, when no key comes twice. -/

namespace DownloadReport.Json

/-! ### Values part by part -/

theorem Items.values_stop {s : ListStop} {room : Nat} {vs : List Value} :
    (Items.stop s).values room = .ok vs ↔ s = .closed ∧ vs = [] := by
  cases s <;> simp [Items.values, ListStop.fault?, failWith, eq_comm]

theorem Items.values_item {n : Node} {rest : Items} {room : Nat} {vs : List Value} :
    (Items.item n rest).values room = .ok vs ↔
      ∃ v ws, n.value room = .ok v ∧ rest.values room = .ok ws ∧ vs = v :: ws := by
  simp only [Items.values, bind_eq_ok_iff, pure_eq_ok_iff, exists_and_left]

theorem Members.values_stop {s : ObjectStop} {room : Nat} {ms : List (String × Value)} :
    (Members.stop s).values room = .ok ms ↔ s = .closed ∧ ms = [] := by
  cases s <;> simp [Members.values, ObjectStop.fault?, failWith, eq_comm]

theorem Members.values_bareKey {key : StringText} {cut : Bool} {room : Nat}
    {ms : List (String × Value)} : (Members.bareKey key cut).values room ≠ .ok ms := by
  simp [Members.values, bind_eq_ok_iff]

theorem Members.values_member {key : StringText} {n : Node} {rest : Members} {room : Nat}
    {ms : List (String × Value)} :
    (Members.member key n rest).values room = .ok ms ↔
      ∃ k v ns, key.decode = .ok k ∧ n.value room = .ok v ∧ rest.values room = .ok ns ∧
        ms = (k, v) :: ns := by
  simp only [Members.values, bind_eq_ok_iff, pure_eq_ok_iff, exists_and_left]

theorem Node.value_list {items : Items} {room : Nat} {v : Value} :
    (Node.list items).value room = .ok v ↔
      ∃ r vs, room = r + 1 ∧ items.values r = .ok vs ∧ v = .array vs := by
  cases room <;> simp [Node.value, map_eq_ok_iff, @eq_comm _ v]

theorem Node.value_object {members : Members} {room : Nat} {v : Value} :
    (Node.object members).value room = .ok v ↔
      ∃ r ms, room = r + 1 ∧ members.values r = .ok ms ∧ v = .object (sortMembers ms) := by
  cases room <;> simp [Node.value, map_eq_ok_iff, @eq_comm _ v]

/-! ### What can be read can be passed over -/

/-- Pieces that denote characters stand before a closing mark. -/
theorem closed_of_decodePieces {stop : StringStop} {ps : List StringPiece} {cs : List Char}
    (h : decodePieces stop ps = .ok cs) : stop = .closed := by
  fun_induction decodePieces stop ps generalizing cs with
  | case1 | case2 => cases stop <;> simp_all [StringStop.fault?]
  | case3 _ _ ih | case5 _ _ _ _ _ _ ih | case9 _ _ _ _ ih =>
    obtain ⟨ds, hds, _⟩ := map_eq_ok_iff.1 h
    exact ih hds
  | case4 | case6 | case7 | case8 => simp at h

/-- A string that denotes a text has its closing mark. -/
theorem StringText.closed_of_decode {s : StringText} {text : String} (h : s.decode = .ok text) :
    s.stop = .closed := by
  obtain ⟨cs, hcs, _⟩ := map_eq_ok_iff.1 h
  exact closed_of_decodePieces hcs

theorem NumberText.fault_of_value {n : NumberText} {x : Number} (h : n.value = .ok x) :
    n.fault = none := by
  unfold NumberText.value at h
  split at h
  next => simp at h
  next => simp at h
  next hfault => exact hfault

mutual
theorem Node.skim_of_value : ∀ {n : Node} {room : Nat} {v : Value},
    n.value room = .ok v → n.skim = .ok ()
  | .missing, _, _, h | .stray, _, _, h | .brokenWord _, _, _, h => by simp [Node.value] at h
  | .null, _, _, _ | .bool _, _, _, _ => rfl
  | .number _, _, _, h => by
    obtain ⟨x, hx, _⟩ := map_eq_ok_iff.1 h
    exact NumberText.skim_eq_ok_iff.2 (NumberText.fault_of_value hx)
  | .string _, _, _, h => by
    obtain ⟨text, htext, _⟩ := map_eq_ok_iff.1 h
    exact StringText.skim_eq_ok_iff.2 (StringText.closed_of_decode htext)
  | .list _, _, _, h => by
    obtain ⟨_, _, _, hvs, _⟩ := Node.value_list.1 h
    exact Items.skim_of_values hvs
  | .object _, _, _, h => by
    obtain ⟨_, _, _, hms, _⟩ := Node.value_object.1 h
    exact Members.skim_of_values hms
theorem Items.skim_of_values : ∀ {items : Items} {room : Nat} {vs : List Value},
    items.values room = .ok vs → items.skim = .ok ()
  | .stop _, _, _, h => ListStop.skim_stop.2 (Items.values_stop.1 h).1
  | .item _ _, _, _, h => by
    obtain ⟨_, _, hv, hvs, _⟩ := Items.values_item.1 h
    exact Items.skim_item.2 ⟨Node.skim_of_value hv, Items.skim_of_values hvs⟩
theorem Members.skim_of_values : ∀ {members : Members} {room : Nat} {ms : List (String × Value)},
    members.values room = .ok ms → members.skim = .ok ()
  | .stop _, _, _, h => ObjectStop.skim_stop.2 (Members.values_stop.1 h).1
  | .bareKey _ _, _, _, h => (Members.values_bareKey h).elim
  | .member _ _ _, _, _, h => by
    obtain ⟨_, _, _, hk, hv, hms, _⟩ := Members.values_member.1 h
    exact Members.skim_member.2
      ⟨StringText.closed_of_decode hk, Node.skim_of_value hv, Members.skim_of_values hms⟩
end

/-- The outline of a text is that of its characters. -/
theorem Outline.of_eq {text : String} {cs : List Char} {n : Node} (hcs : text.toList = cs)
    (hscan : scanNode (2 * cs.length + 2) cs = (n, [])) : Outline.of text = ⟨n, false⟩ := by
  simp only [Outline.of, hcs, hscan]
  rfl

/-- A text has a value when its outline has one and nothing stands behind it. -/
theorem Value.parse_eq_ok_iff {text : String} {v : Value} :
    Value.parse text = .ok v ↔
      (Outline.of text).root.value deepest = .ok v ∧ (Outline.of text).surplus = false := by
  simp only [Value.parse, bind_eq_ok_iff, pure_eq_ok_iff, Outline.checkEnd]
  cases (Outline.of text).surplus <;> simp

theorem Value.parse_of_outline {text : String} {n : Node} {v : Value}
    (houtline : Outline.of text = ⟨n, false⟩) (hvalue : n.value deepest = .ok v) :
    Value.parse text = .ok v := by
  rw [Value.parse_eq_ok_iff, houtline]
  exact ⟨hvalue, rfl⟩

/-! ### Nesting -/

mutual
/-- How many lists and objects are open at once. -/
def Node.depth : Node → Nat
  | .list items => items.depth + 1
  | .object members => members.depth + 1
  | .missing | .stray | .null | .bool _ | .brokenWord _ | .number _ | .string _ => 0
def Items.depth : Items → Nat
  | .stop _ => 0
  | .item n rest => max n.depth rest.depth
def Members.depth : Members → Nat
  | .stop _ | .bareKey _ _ => 0
  | .member _ n rest => max n.depth rest.depth
end

mutual
/-- A value that was read with some room can be read with as much room as its depth. -/
theorem Node.value_of_depth_le : ∀ {n : Node} {room room' : Nat} {v : Value},
    n.value room = .ok v → n.depth ≤ room' → n.value room' = .ok v
  | .missing, _, _, _, h, _ | .stray, _, _, _, h, _ | .brokenWord _, _, _, _, h, _
  | .null, _, _, _, h, _ | .bool _, _, _, _, h, _ | .number _, _, _, _, h, _
  | .string _, _, _, _, h, _ => h
  | .list items, _, room', v, h, hd => by
    obtain ⟨_, vs, rfl, hvs, rfl⟩ := Node.value_list.1 h
    obtain ⟨r, rfl⟩ : ∃ r, room' = r + 1 := ⟨room' - 1, by simp only [Node.depth] at hd; omega⟩
    exact Node.value_list.2 ⟨r, vs, rfl, Items.values_of_depth_le hvs (Nat.le_of_succ_le_succ hd), rfl⟩
  | .object members, _, room', v, h, hd => by
    obtain ⟨_, ms, rfl, hms, rfl⟩ := Node.value_object.1 h
    obtain ⟨r, rfl⟩ : ∃ r, room' = r + 1 := ⟨room' - 1, by simp only [Node.depth] at hd; omega⟩
    exact Node.value_object.2
      ⟨r, ms, rfl, Members.values_of_depth_le hms (Nat.le_of_succ_le_succ hd), rfl⟩
theorem Items.values_of_depth_le : ∀ {items : Items} {room room' : Nat} {vs : List Value},
    items.values room = .ok vs → items.depth ≤ room' → items.values room' = .ok vs
  | .stop _, _, _, _, h, _ => Items.values_stop.2 (Items.values_stop.1 h)
  | .item _ _, _, _, _, h, hd => by
    obtain ⟨v, ws, hv, hws, rfl⟩ := Items.values_item.1 h
    obtain ⟨hn, hrest⟩ := Nat.max_le.1 hd
    exact Items.values_item.2
      ⟨v, ws, Node.value_of_depth_le hv hn, Items.values_of_depth_le hws hrest, rfl⟩
theorem Members.values_of_depth_le : ∀ {members : Members} {room room' : Nat}
    {ms : List (String × Value)},
    members.values room = .ok ms → members.depth ≤ room' → members.values room' = .ok ms
  | .stop _, _, _, _, h, _ => Members.values_stop.2 (Members.values_stop.1 h)
  | .bareKey _ _, _, _, _, h, _ => (Members.values_bareKey h).elim
  | .member _ _ _, _, _, _, h, hd => by
    obtain ⟨k, v, ns, hk, hv, hns, rfl⟩ := Members.values_member.1 h
    obtain ⟨hn, hrest⟩ := Nat.max_le.1 hd
    exact Members.values_member.2
      ⟨k, v, ns, hk, Node.value_of_depth_le hv hn, Members.values_of_depth_le hns hrest, rfl⟩
end

/-! ### Keys -/

/-- The keys of the members of an object that denote a text, in the order of the text. -/
def Members.keys : Members → List String
  | .stop _ | .bareKey _ _ => []
  | .member key _ rest =>
    match key.decode with
    | .ok k => k :: rest.keys
    | .error _ => rest.keys

mutual
/-- Whether no object within the outline repeats a key. -/
def Node.distinctKeys : Node → Bool
  | .list items => items.distinctKeys
  | .object members => decide members.keys.Nodup && members.distinctKeys
  | .missing | .stray | .null | .bool _ | .brokenWord _ | .number _ | .string _ => true
def Items.distinctKeys : Items → Bool
  | .stop _ => true
  | .item n rest => n.distinctKeys && rest.distinctKeys
def Members.distinctKeys : Members → Bool
  | .stop _ | .bareKey _ _ => true
  | .member _ n rest => n.distinctKeys && rest.distinctKeys
end

/-- The members of a value that was read have the keys of the text. -/
theorem Members.keys_of_values : ∀ {members : Members} {room : Nat} {ms : List (String × Value)},
    members.values room = .ok ms → ms.map Prod.fst = members.keys
  | .stop _, _, _, h => by rw [(Members.values_stop.1 h).2]; rfl
  | .bareKey _ _, _, _, h => (Members.values_bareKey h).elim
  | .member _ _ _, _, _, h => by
    obtain ⟨k, v, ns, hk, _, hns, rfl⟩ := Members.values_member.1 h
    rw [Members.keys, hk, List.map_cons, Members.keys_of_values hns]

/-- A member with a key of its own is added. -/
theorem putMember_perm {key : String} (v : Value) : ∀ {ms : List (String × Value)},
    key ∉ ms.map Prod.fst → (putMember key v ms).Perm ((key, v) :: ms)
  | [], _ => .refl _
  | (k, w) :: rest, h => by
    simp only [List.map_cons, List.mem_cons, not_or] at h
    rw [putMember, if_neg h.1]
    split
    · exact .refl _
    · exact ((putMember_perm v h.2).cons (k, w)).trans (.swap _ _ _)

/-- Sorting keeps the members of an object when no key comes twice. -/
theorem sortMembers_perm {ms : List (String × Value)} (h : (ms.map Prod.fst).Nodup) :
    (sortMembers ms).Perm ms := by
  suffices hfold : ∀ (ms sorted : List (String × Value)), ((ms ++ sorted).map Prod.fst).Nodup →
      (ms.foldl (fun sorted m => putMember m.1 m.2 sorted) sorted).Perm (ms ++ sorted) by
    simpa [sortMembers] using hfold ms [] (by simpa using h)
  -- What is sorted already has other keys than what is still to come.
  intro ms
  induction ms with
  | nil => exact fun sorted _ => .refl _
  | cons m ms ih =>
    intro sorted hnodup
    simp only [List.cons_append, List.map_cons, List.nodup_cons] at hnodup
    have hm : m.1 ∉ sorted.map Prod.fst := fun hmem =>
      hnodup.1 (by rw [List.map_append]; exact List.mem_append_right _ hmem)
    have hput : (ms ++ putMember m.1 m.2 sorted).Perm (m :: (ms ++ sorted)) :=
      ((putMember_perm m.2 hm).append_left ms).trans List.perm_middle
    refine (ih (putMember m.1 m.2 sorted) ?_).trans hput
    rw [(hput.map Prod.fst).nodup_iff, List.map_cons, List.nodup_cons]
    exact hnodup

/-- Values in which no object repeats a key. -/
inductive Value.Distinct : Value → Prop where
  | null : Distinct .null
  | bool (b : Bool) : Distinct (.bool b)
  | number (n : Number) : Distinct (.number n)
  | string (s : String) : Distinct (.string s)
  | array {items : List Value} (h : ∀ v ∈ items, Distinct v) : Distinct (.array items)
  | object {members : List (String × Value)} (hkeys : (members.map Prod.fst).Nodup)
      (h : ∀ m ∈ members, Distinct m.2) : Distinct (.object members)

mutual
/-- When no object of the outline repeats a key, none of the value does. -/
theorem Node.distinct_of_value : ∀ {n : Node} {room : Nat} {v : Value},
    n.distinctKeys = true → n.value room = .ok v → v.Distinct
  | .missing, _, _, _, h | .stray, _, _, _, h | .brokenWord _, _, _, _, h => by
    simp [Node.value] at h
  | .null, _, _, _, h => by cases h; exact .null
  | .bool b, _, _, _, h => by cases h; exact .bool b
  | .number _, _, _, _, h => by
    obtain ⟨x, _, rfl⟩ := map_eq_ok_iff.1 h
    exact .number x
  | .string _, _, _, _, h => by
    obtain ⟨text, _, rfl⟩ := map_eq_ok_iff.1 h
    exact .string text
  | .list _, _, _, hd, h => by
    obtain ⟨_, vs, _, hvs, rfl⟩ := Node.value_list.1 h
    exact .array (Items.distinct_of_values hd hvs)
  | .object members, _, _, hd, h => by
    obtain ⟨_, ms, _, hms, rfl⟩ := Node.value_object.1 h
    obtain ⟨hkeys, hmembers⟩ := Bool.and_eq_true_iff.1 hd
    have hnodup : (ms.map Prod.fst).Nodup := by
      rw [Members.keys_of_values hms]
      exact of_decide_eq_true hkeys
    have hperm := sortMembers_perm hnodup
    refine .object ((hperm.map Prod.fst).nodup_iff.2 hnodup) fun m hm => ?_
    exact Members.distinct_of_values hmembers hms m (hperm.mem_iff.1 hm)
theorem Items.distinct_of_values : ∀ {items : Items} {room : Nat} {vs : List Value},
    items.distinctKeys = true → items.values room = .ok vs → ∀ v ∈ vs, v.Distinct
  | .stop _, _, _, _, h => by
    rw [(Items.values_stop.1 h).2]
    exact List.forall_mem_nil _
  | .item _ _, _, _, hd, h => by
    obtain ⟨v, ws, hv, hws, rfl⟩ := Items.values_item.1 h
    obtain ⟨hn, hrest⟩ := Bool.and_eq_true_iff.1 hd
    exact List.forall_mem_cons.2
      ⟨Node.distinct_of_value hn hv, Items.distinct_of_values hrest hws⟩
theorem Members.distinct_of_values : ∀ {members : Members} {room : Nat}
    {ms : List (String × Value)},
    members.distinctKeys = true → members.values room = .ok ms → ∀ m ∈ ms, m.2.Distinct
  | .stop _, _, _, _, h => by
    rw [(Members.values_stop.1 h).2]
    exact List.forall_mem_nil _
  | .bareKey _ _, _, _, _, h => (Members.values_bareKey h).elim
  | .member _ _ _, _, _, hd, h => by
    obtain ⟨k, v, ns, _, hv, hns, rfl⟩ := Members.values_member.1 h
    obtain ⟨hn, hrest⟩ := Bool.and_eq_true_iff.1 hd
    exact List.forall_mem_cons.2
      ⟨Node.distinct_of_value hn hv, Members.distinct_of_values hrest hns⟩
end

/-- When no object of a text repeats a key, none of its value does. -/
theorem Value.distinct_of_parse {text : String} {v : Value} (hparse : Value.parse text = .ok v)
    (hdistinct : (Outline.of text).root.distinctKeys = true) : v.Distinct :=
  Node.distinct_of_value hdistinct (Value.parse_eq_ok_iff.1 hparse).1

end DownloadReport.Json

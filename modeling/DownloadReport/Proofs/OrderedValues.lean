import DownloadReport.Proofs.KeyOrder
import DownloadReport.Proofs.Printing

/-! Values in order: the members of each object stand in the order of their keys, and no key comes twice.
    A value that is read from a text is in order, whatever the text repeats and in whichever order
    (`Value.ordered_of_parse`); and a value in order comes back from its text as it was
    (`Value.Ordered.sorted_eq`). -/

namespace DownloadReport.Json

/-- Values whose objects all have their members in the order of the keys. -/
inductive Value.Ordered : Value → Prop where
  | null : Ordered .null
  | bool (b : Bool) : Ordered (.bool b)
  | number (n : Number) : Ordered (.number n)
  | string (s : String) : Ordered (.string s)
  | array {items : List Value} (h : ∀ v ∈ items, Ordered v) : Ordered (.array items)
  | object {members : List (String × Value)} (hkeys : KeySorted members)
      (h : ∀ m ∈ members, Ordered m.2) : Ordered (.object members)

/-- A value in order repeats no key. -/
theorem Value.Ordered.distinct {v : Value} (h : v.Ordered) : v.Distinct := by
  induction h with
  | null => exact .null
  | bool b => exact .bool b
  | number n => exact .number n
  | string s => exact .string s
  | array _ ih => exact .array ih
  | object hkeys _ ih => exact .object hkeys.nodup ih

/-! ### Sorting -/

/-- Members in order are not moved. -/
theorem sortMembers_of_keySorted {ms : List (String × Value)} (h : KeySorted ms) :
    sortMembers ms = ms :=
  (sortMembers_perm h.nodup).eq_of_pairwise
    (fun _ _ _ _ hab hba => absurd hba (String.lt_asymm hab)) (keySorted_sortMembers ms) h

theorem sortedMembers_eq_self {ms : List (String × Value)} (h : ∀ m ∈ ms, m.2.sorted = m.2) :
    sortedMembers ms = ms := by
  induction ms with
  | nil => rfl
  | cons m ms ih =>
    obtain ⟨key, v⟩ := m
    obtain ⟨hm, hms⟩ := List.forall_mem_cons.1 h
    rw [sortedMembers, sortedMember, ih hms, hm]

/-- A value in order is sorted already. -/
theorem Value.Ordered.sorted_eq {v : Value} (h : v.Ordered) : v.sorted = v := by
  induction h with
  | null | bool _ | number _ | string _ => rfl
  | array _ ih => rw [Value.sorted, sortedItems_eq_map, List.map_congr_left ih, List.map_id']
  | object hkeys _ ih =>
    rw [Value.sorted, sortedMembers_eq_self ih, sortMembers_of_keySorted hkeys]

theorem mem_of_mem_putMember {key : String} {v : Value} {ms : List (String × Value)}
    {m : String × Value} (h : m ∈ putMember key v ms) : m = (key, v) ∨ m ∈ ms := by
  induction ms with
  | nil => exact .inl (List.mem_singleton.1 h)
  | cons n rest ih =>
    obtain ⟨k, w⟩ := n
    rw [putMember] at h
    split_ifs at h
    · rcases List.mem_cons.1 h with h | h
      · exact .inl h
      · exact .inr (List.mem_cons_of_mem _ h)
    · exact List.mem_cons.1 h
    · rcases List.mem_cons.1 h with h | h
      · exact .inr (h ▸ List.mem_cons_self)
      · exact (ih h).imp_right (List.mem_cons_of_mem _)

/-- Sorting adds no members. -/
theorem mem_of_mem_sortMembers {ms : List (String × Value)} {m : String × Value}
    (h : m ∈ sortMembers ms) : m ∈ ms := by
  suffices hfold : ∀ (ms sorted : List (String × Value)),
      m ∈ ms.foldl (fun sorted m => putMember m.1 m.2 sorted) sorted → m ∈ ms ∨ m ∈ sorted from
    (hfold ms [] h).resolve_right List.not_mem_nil
  intro ms
  induction ms with
  | nil => exact fun _ h => .inr h
  | cons n ms ih =>
    intro sorted h
    rcases ih _ h with h | h
    · exact .inl (List.mem_cons_of_mem _ h)
    · rcases mem_of_mem_putMember h with rfl | h
      · exact .inl List.mem_cons_self
      · exact .inr h

/-! ### Reading -/

mutual
/-- What a node denotes is in order. -/
theorem Node.ordered_of_value : ∀ {n : Node} {room : Nat} {v : Value},
    n.value room = .ok v → v.Ordered
  | .missing, _, _, h | .stray, _, _, h | .brokenWord _, _, _, h => by simp [Node.value] at h
  | .null, _, _, h => by cases h; exact .null
  | .bool b, _, _, h => by cases h; exact .bool b
  | .number _, _, _, h => by
    obtain ⟨x, _, rfl⟩ := map_eq_ok_iff.1 h
    exact .number x
  | .string _, _, _, h => by
    obtain ⟨text, _, rfl⟩ := map_eq_ok_iff.1 h
    exact .string text
  | .list _, _, _, h => by
    obtain ⟨_, vs, _, hvs, rfl⟩ := Node.value_list.1 h
    exact .array (Items.ordered_of_values hvs)
  | .object _, _, _, h => by
    obtain ⟨_, ms, _, hms, rfl⟩ := Node.value_object.1 h
    exact .object (keySorted_sortMembers ms) fun m hm =>
      Members.ordered_of_values hms m (mem_of_mem_sortMembers hm)
theorem Items.ordered_of_values : ∀ {items : Items} {room : Nat} {vs : List Value},
    items.values room = .ok vs → ∀ v ∈ vs, v.Ordered
  | .stop _, _, _, h => by
    rw [(Items.values_stop.1 h).2]
    exact List.forall_mem_nil _
  | .item _ _, _, _, h => by
    obtain ⟨v, ws, hv, hws, rfl⟩ := Items.values_item.1 h
    exact List.forall_mem_cons.2 ⟨Node.ordered_of_value hv, Items.ordered_of_values hws⟩
theorem Members.ordered_of_values : ∀ {members : Members} {room : Nat}
    {ms : List (String × Value)}, members.values room = .ok ms → ∀ m ∈ ms, m.2.Ordered
  | .stop _, _, _, h => by
    rw [(Members.values_stop.1 h).2]
    exact List.forall_mem_nil _
  | .bareKey _ _, _, _, h => (Members.values_bareKey h).elim
  | .member _ _ _, _, _, h => by
    obtain ⟨k, v, ns, _, hv, hns, rfl⟩ := Members.values_member.1 h
    exact List.forall_mem_cons.2 ⟨Node.ordered_of_value hv, Members.ordered_of_values hns⟩
end

/-- The value of a text is in order. -/
theorem Value.ordered_of_parse {text : String} {v : Value} (h : Value.parse text = .ok v) :
    v.Ordered :=
  Node.ordered_of_value (Value.parse_eq_ok_iff.1 h).1

end DownloadReport.Json

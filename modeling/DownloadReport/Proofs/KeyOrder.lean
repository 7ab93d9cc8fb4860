import DownloadReport.Proofs.Denotation

/-! Members in the order of their keys. Sorting leaves every key once and puts the keys in order
    (`keySorted_sortMembers`), also when the text repeats some of them. So it does not matter in
    which order members with distinct keys stood (`sortMembers_eq_of_perm`), whether members are left
    out before or behind the sorting (`filter_sortMembers`), and what their values are
    (`keywise_sortMembers`). -/

namespace DownloadReport.Json

/-- Members in the order of their keys, each key once. -/
def KeySorted (ms : List (String × Value)) : Prop := ms.Pairwise fun a b => a.1 < b.1

variable {ms ms' : List (String × Value)} {key k : String} {v : Value}

theorem KeySorted.nodup (h : KeySorted ms) : (ms.map Prod.fst).Nodup := by
  rw [List.nodup_iff_pairwise_ne, List.pairwise_map]
  refine h.imp fun {a b} hab heq => ?_
  rw [heq] at hab
  exact String.lt_irrefl b.1 hab

/-! ### One member -/

theorem mem_keys_putMember :
    k ∈ (putMember key v ms).map Prod.fst ↔ k = key ∨ k ∈ ms.map Prod.fst := by
  induction ms with
  | nil => simp [putMember]
  | cons m rest ih =>
    obtain ⟨k', w⟩ := m
    rw [putMember]
    split_ifs with heq hlt
    · simp [heq]
    · simp
    · simp only [List.map_cons, List.mem_cons, ih]
      exact or_left_comm

theorem keySorted_putMember (v : Value) (h : KeySorted ms) : KeySorted (putMember key v ms) := by
  induction ms with
  | nil => exact List.pairwise_singleton _ _
  | cons m rest ih =>
    obtain ⟨k', w⟩ := m
    obtain ⟨hfirst, hrest⟩ := List.pairwise_cons.1 h
    rw [putMember]
    split_ifs with heq hlt
    · subst heq
      exact List.pairwise_cons.2 ⟨hfirst, hrest⟩
    · refine List.pairwise_cons.2 ⟨fun m hm => ?_, h⟩
      rcases List.mem_cons.1 hm with rfl | hm
      · exact hlt
      · exact String.lt_trans hlt (hfirst m hm)
    · refine List.pairwise_cons.2 ⟨fun m hm => ?_, ih hrest⟩
      rcases mem_keys_putMember.1 (List.mem_map.2 ⟨m, hm, rfl⟩) with hkey | hmem
      · rw [hkey]
        exact Std.lt_of_le_of_ne (String.not_lt.1 hlt) (Ne.symm heq)
      · obtain ⟨m', hm', hkey⟩ := List.mem_map.1 hmem
        rw [← hkey]
        exact hfirst m' hm'

/-- A member before all others is put in front. -/
theorem putMember_of_lt (v : Value) (h : ∀ m ∈ ms, key < m.1) :
    putMember key v ms = (key, v) :: ms := by
  cases ms with
  | nil => rfl
  | cons m rest =>
    have hlt : key < m.1 := h m List.mem_cons_self
    rw [putMember, if_neg (fun heq => String.lt_irrefl _ (heq ▸ hlt)), if_pos hlt]

/-- A member that is left out can as well not be put. -/
theorem filter_putMember_of_neg {p : String → Bool} (hp : p key = false) (v : Value) :
    (putMember key v ms).filter (fun m => p m.1) = ms.filter fun m => p m.1 := by
  induction ms with
  | nil => simp [putMember, hp]
  | cons m rest ih =>
    obtain ⟨k', w⟩ := m
    rw [putMember]
    split_ifs with heq hlt
    · subst heq
      simp [hp]
    · simp [List.filter_cons, hp]
    · rw [List.filter_cons, List.filter_cons, ih]

/-- A member that is not left out can be put before or behind the leaving out of others. -/
theorem filter_putMember_of_pos {p : String → Bool} (hp : p key = true) (v : Value)
    (h : KeySorted ms) :
    (putMember key v ms).filter (fun m => p m.1) = putMember key v (ms.filter fun m => p m.1) := by
  induction ms with
  | nil => simp [putMember, hp]
  | cons m rest ih =>
    obtain ⟨k', w⟩ := m
    obtain ⟨hfirst, hrest⟩ := List.pairwise_cons.1 h
    by_cases heq : key = k'
    · subst heq
      simp [putMember, hp]
    by_cases hlt : key < k'
    · have hbefore : ∀ m ∈ ((k', w) :: rest).filter (fun m => p m.1), key < m.1 := by
        intro m hm
        rcases List.mem_cons.1 (List.mem_of_mem_filter hm) with rfl | hm
        · exact hlt
        · exact String.lt_trans hlt (hfirst m hm)
      rw [putMember_of_lt v hbefore, putMember, if_neg heq, if_pos hlt, List.filter_cons, if_pos hp]
    · rw [putMember, if_neg heq, if_neg hlt, List.filter_cons, List.filter_cons, ih hrest]
      split
      · rw [putMember, if_neg heq, if_neg hlt]
      · rfl

/-- Members with the same keys in the same order, whose values are related one by one. -/
abbrev Keywise (R : String → Value → Value → Prop) :
    List (String × Value) → List (String × Value) → Prop :=
  List.Forall₂ fun m m' => m.1 = m'.1 ∧ R m.1 m.2 m'.2

/-- Putting a member looks at keys only. -/
theorem keywise_putMember {R : String → Value → Value → Prop} {v' : Value} (hv : R key v v')
    (h : Keywise R ms ms') : Keywise R (putMember key v ms) (putMember key v' ms') := by
  induction h with
  | nil => exact .cons ⟨rfl, hv⟩ .nil
  | @cons m m' _ _ hm hrest ih =>
    obtain ⟨k', w⟩ := m
    obtain ⟨_, w'⟩ := m'
    obtain ⟨rfl, hw⟩ := hm
    rw [putMember, putMember]
    split_ifs
    · exact .cons ⟨rfl, hv⟩ hrest
    · exact .cons ⟨rfl, hv⟩ (.cons ⟨rfl, hw⟩ hrest)
    · exact .cons ⟨rfl, hw⟩ ih

/-! ### All members -/

theorem keySorted_sortMembers (ms : List (String × Value)) : KeySorted (sortMembers ms) := by
  suffices hfold : ∀ (ms sorted : List (String × Value)), KeySorted sorted →
      KeySorted (ms.foldl (fun sorted m => putMember m.1 m.2 sorted) sorted) from
    hfold ms [] .nil
  intro ms
  induction ms with
  | nil => exact fun _ h => h
  | cons m ms ih => exact fun sorted h => ih _ (keySorted_putMember m.2 h)

theorem mem_keys_sortMembers : k ∈ (sortMembers ms).map Prod.fst ↔ k ∈ ms.map Prod.fst := by
  suffices hfold : ∀ (ms sorted : List (String × Value)),
      k ∈ (ms.foldl (fun sorted m => putMember m.1 m.2 sorted) sorted).map Prod.fst ↔
        k ∈ ms.map Prod.fst ∨ k ∈ sorted.map Prod.fst by
    simpa [sortMembers] using hfold ms []
  intro ms
  induction ms with
  | nil => simp
  | cons m ms ih =>
    intro sorted
    rw [List.foldl_cons, ih, mem_keys_putMember, List.map_cons, List.mem_cons]
    tauto

/-- Members with distinct keys are sorted alike, in whichever order they stand. -/
theorem sortMembers_eq_of_perm (hkeys : (ms.map Prod.fst).Nodup) (h : ms.Perm ms') :
    sortMembers ms = sortMembers ms' := by
  have hperm : (sortMembers ms).Perm (sortMembers ms') :=
    (sortMembers_perm hkeys).trans
      (h.trans (sortMembers_perm ((h.map Prod.fst).nodup_iff.1 hkeys)).symm)
  exact hperm.eq_of_pairwise (fun _ _ _ _ hab hba => absurd hba (String.lt_asymm hab))
    (keySorted_sortMembers ms) (keySorted_sortMembers ms')

theorem filter_sortMembers (p : String → Bool) (ms : List (String × Value)) :
    (sortMembers ms).filter (fun m => p m.1) = sortMembers (ms.filter fun m => p m.1) := by
  suffices hfold : ∀ (ms sorted : List (String × Value)), KeySorted sorted →
      (ms.foldl (fun sorted m => putMember m.1 m.2 sorted) sorted).filter (fun m => p m.1) =
        (ms.filter fun m => p m.1).foldl (fun sorted m => putMember m.1 m.2 sorted)
          (sorted.filter fun m => p m.1) from
    hfold ms [] .nil
  intro ms
  induction ms with
  | nil => exact fun _ _ => rfl
  | cons m ms ih =>
    intro sorted h
    rw [List.foldl_cons, ih _ (keySorted_putMember m.2 h), List.filter_cons]
    split
    next hp => rw [filter_putMember_of_pos hp m.2 h, List.foldl_cons]
    next hp => rw [filter_putMember_of_neg (by simpa using hp)]

theorem keywise_sortMembers {R : String → Value → Value → Prop} (h : Keywise R ms ms') :
    Keywise R (sortMembers ms) (sortMembers ms') := by
  suffices hfold : ∀ {sorted sorted' : List (String × Value)}, Keywise R sorted sorted' →
      Keywise R (ms.foldl (fun sorted m => putMember m.1 m.2 sorted) sorted)
        (ms'.foldl (fun sorted m => putMember m.1 m.2 sorted) sorted') from
    hfold .nil
  induction h with
  | nil => exact fun h => h
  | cons hm _ ih =>
    intro sorted sorted' h
    rw [List.foldl_cons, List.foldl_cons, ← hm.1]
    exact ih (keywise_putMember hm.2 h)

/-- The members of a value that was read from a text have distinct keys, also when those of the text
    have not. -/
theorem nodup_of_value {n : Node} {room : Nat} (h : n.value room = .ok (.object ms)) :
    (ms.map Prod.fst).Nodup := by
  cases n with
  | object members =>
    obtain ⟨_, vs, _, _, hms⟩ := Node.value_object.1 h
    cases hms
    exact (keySorted_sortMembers vs).nodup
  | list items =>
    obtain ⟨_, _, _, _, hvs⟩ := Node.value_list.1 h
    exact nomatch hvs
  | number n | string s =>
    obtain ⟨_, _, hx⟩ := map_eq_ok_iff.1 h
    exact nomatch hx
  | missing | stray | null | bool _ | brokenWord _ => exact nomatch h

end DownloadReport.Json

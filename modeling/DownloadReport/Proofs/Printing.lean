import DownloadReport.Proofs.Scanning
import DownloadReport.Proofs.Written

/-! Written values can be had back. A value without floating-point numbers in which no object repeats a
    key is written as a text that denotes it, but for the order of the members of its objects
    (`parse_write`). Blanks between the parts do not matter, so this holds for both ways of writing. -/

namespace DownloadReport.Json

/-! ### Values as they come back -/

mutual
/-- A value with the members of all its objects in the order of their keys. -/
def Value.sorted : Value → Value
  | .array items => .array (sortedItems items)
  | .object members => .object (sortMembers (sortedMembers members))
  | .null => .null
  | .bool b => .bool b
  | .number n => .number n
  | .string s => .string s
def sortedItems : List Value → List Value
  | [] => []
  | v :: vs => v.sorted :: sortedItems vs
def sortedMembers : List (String × Value) → List (String × Value)
  | [] => []
  | m :: ms => sortedMember m :: sortedMembers ms
def sortedMember : String × Value → String × Value
  | (key, v) => (key, v.sorted)
end

theorem sortedItems_eq_map (vs : List Value) : sortedItems vs = vs.map Value.sorted := by
  induction vs with
  | nil => rfl
  | cons v vs ih => rw [sortedItems, ih, List.map_cons]

theorem sortedMembers_append (ms ns : List (String × Value)) :
    sortedMembers (ms ++ ns) = sortedMembers ms ++ sortedMembers ns := by
  induction ms with
  | nil => rfl
  | cons m ms ih => rw [List.cons_append, sortedMembers, sortedMembers, ih, List.cons_append]

@[simp] theorem keys_sortedMembers (ms : List (String × Value)) :
    (sortedMembers ms).map Prod.fst = ms.map Prod.fst := by
  induction ms with
  | nil => rfl
  | cons m ms ih =>
    obtain ⟨key, v⟩ := m
    rw [sortedMembers, List.map_cons, List.map_cons, ih, sortedMember]

/-- An object has the same keys when it comes back. -/
theorem keys_sorted_perm {ms : List (String × Value)} (h : (ms.map Prod.fst).Nodup) :
    ((sortMembers (sortedMembers ms)).map Prod.fst).Perm (ms.map Prod.fst) := by
  have hkeys : ((sortedMembers ms).map Prod.fst).Nodup := by
    rw [keys_sortedMembers]
    exact h
  have hperm := (sortMembers_perm hkeys).map Prod.fst
  rw [keys_sortedMembers] at hperm
  exact hperm

/-- Values without floating-point numbers that nest at most `room` deep and in which no object repeats
    a key. -/
inductive Value.Plain : Nat → Value → Prop where
  | null {room : Nat} : Plain room .null
  | bool {room : Nat} (b : Bool) : Plain room (.bool b)
  | integer {room : Nat} (n : Int) (fits : -9223372036854775808 ≤ n ∧ n < 18446744073709551616) :
      Plain room (.number (.integer n fits))
  | string {room : Nat} (s : String) : Plain room (.string s)
  | array {room : Nat} {items : List Value} (h : ∀ v ∈ items, Plain room v) :
      Plain (room + 1) (.array items)
  | object {room : Nat} {members : List (String × Value)} (hkeys : (members.map Prod.fst).Nodup)
      (h : ∀ m ∈ members, Plain room m.2) : Plain (room + 1) (.object members)

/-! ### Writing -/

/-- A style that sets nothing but blanks between the parts. -/
structure Style.IsBlank (style : Style) : Prop where
  beforeItem : ∀ depth, Blank (style.beforeItem depth)
  beforeEnd : ∀ depth, Blank (style.beforeEnd depth)
  behindColon : Blank style.behindColon

theorem blank_newLine (depth : Nat) : Blank (newLine depth) := by
  intro c hc
  rcases List.mem_cons.1 hc with rfl | hc
  · rfl
  · rw [List.eq_of_mem_replicate hc]
    rfl

theorem Style.isBlank_compact : Style.compact.IsBlank := ⟨fun _ => .nil, fun _ => .nil, .nil⟩

theorem Style.isBlank_indented : Style.indented.IsBlank :=
  ⟨fun depth => blank_newLine (depth + 1), blank_newLine, by simp [Style.indented, Blank, isBlank]⟩

section Written

variable {style : Style} {room : Nat}

/-- A value that is spelled as it is written, at whatever depth, and comes back with its members in
    the order of their keys. -/
def Value.ComesBack (style : Style) (room : Nat) (v : Value) : Prop :=
  ∀ depth, ∃ n, Spells (v.write style depth) n ∧ n.value room = .ok v.sorted ∧
    n.distinctKeys = true

/-- The items of a list come back when each of them does. -/
theorem items_comeBack (hstyle : style.IsBlank) (depth : Nat) {v : Value} {vs : List Value}
    (h : ∀ w ∈ v :: vs, w.ComesBack style room) :
    ∃ items, SpellsItems (v.write style (depth + 1) ++ writeItems style vs depth) items ∧
      items.values room = .ok (sortedItems (v :: vs)) ∧ items.distinctKeys = true := by
  induction vs generalizing v with
  | nil =>
    obtain ⟨n, hn, hvalue, hdistinct⟩ := h v List.mem_cons_self (depth + 1)
    refine ⟨.item n (.stop .closed), .last hn (hstyle.beforeEnd depth), ?_, ?_⟩
    · exact Items.values_item.2 ⟨_, [], hvalue, rfl, rfl⟩
    · simp [Items.distinctKeys, hdistinct]
  | cons w vs ih =>
    obtain ⟨n, hn, hvalue, hdistinct⟩ := h v List.mem_cons_self (depth + 1)
    obtain ⟨rest, hrest, hvalues, hdistincts⟩ := ih fun u hu => h u (List.mem_cons_of_mem _ hu)
    refine ⟨.item n rest, ?_, ?_, ?_⟩
    · have hspell := SpellsItems.more hn .nil (hstyle.beforeItem depth) hrest
      simpa [writeItems] using hspell
    · exact Items.values_item.2 ⟨_, _, hvalue, hvalues, rfl⟩
    · simp [Items.distinctKeys, hdistinct, hdistincts]

/-- The members of an object come back when each of their values does. -/
theorem members_comeBack (hstyle : style.IsBlank) (depth : Nat) {m : String × Value}
    {ms : List (String × Value)} (h : ∀ w ∈ m :: ms, w.2.ComesBack style room) :
    ∃ cs members, writeMember style m depth ++ writeMembers style ms depth = '"' :: cs ∧
      SpellsMembers cs members ∧ members.values room = .ok (sortedMembers (m :: ms)) ∧
      members.distinctKeys = true := by
  induction ms generalizing m with
  | nil =>
    obtain ⟨key, v⟩ := m
    obtain ⟨n, hn, hvalue, hdistinct⟩ := h (key, v) List.mem_cons_self (depth + 1)
    obtain ⟨ks, hks, hkey⟩ := spells_writeString key
    refine ⟨_, _, ?_, .last hkey .nil hstyle.behindColon hn (hstyle.beforeEnd depth), ?_, ?_⟩
    · simp [writeMember, writeMembers, hks]
    · exact Members.values_member.2 ⟨key, _, [], decode_pieces key, hvalue, rfl, rfl⟩
    · simp [Members.distinctKeys, hdistinct]
  | cons w ms ih =>
    obtain ⟨key, v⟩ := m
    obtain ⟨n, hn, hvalue, hdistinct⟩ := h (key, v) List.mem_cons_self (depth + 1)
    obtain ⟨ks, hks, hkey⟩ := spells_writeString key
    obtain ⟨cs, rest, hcs, hrest, hvalues, hdistincts⟩ := ih fun u hu =>
      h u (List.mem_cons_of_mem _ hu)
    refine ⟨_, _, ?_, .more hkey .nil hstyle.behindColon hn .nil (hstyle.beforeItem depth) hrest,
      ?_, ?_⟩
    · rw [← hcs]
      simp [writeMember, writeMembers, hks]
    · exact Members.values_member.2 ⟨key, _, _, decode_pieces key, hvalue, hvalues, rfl⟩
    · simp [Members.distinctKeys, hdistinct, hdistincts]

/-- Plain values come back. -/
theorem Value.Plain.comesBack (hstyle : style.IsBlank) {v : Value} (hv : v.Plain room) :
    v.ComesBack style room := by
  induction hv with
  | null => exact fun _ => ⟨.null, .null, rfl, rfl⟩
  | bool b =>
    cases b with
    | true => exact fun _ => ⟨.bool true, .boolTrue, rfl, rfl⟩
    | false => exact fun _ => ⟨.bool false, .boolFalse, rfl, rfl⟩
  | integer n fits =>
    intro depth
    refine ⟨.number (integerText n), ?_, ?_, rfl⟩
    · have hspell := Spells.number (spells_integer n)
      simpa [Value.write, Number.text] using hspell
    · rw [Node.value, value_integerText n fits]; rfl
  | string s =>
    intro depth
    obtain ⟨cs, hcs, hspell⟩ := spells_writeString s
    refine ⟨.string ⟨s.toList.map charPiece, .closed⟩, ?_, ?_, rfl⟩
    · rw [Value.write, hcs]
      exact .string hspell
    · rw [Node.value, decode_pieces]; rfl
  | @array room items _ ih =>
    intro depth
    cases items with
    | nil => exact ⟨.list (.stop .closed), .emptyList .nil, rfl, rfl⟩
    | cons v vs =>
      obtain ⟨items, hspell, hvalues, hdistinct⟩ := items_comeBack hstyle depth ih
      refine ⟨.list items, ?_, ?_, hdistinct⟩
      · have hlist := Spells.list (hstyle.beforeItem depth) hspell
        simpa [Value.write] using hlist
      · exact Node.value_list.2 ⟨room, _, rfl, hvalues, rfl⟩
  | @object room members hkeys _ ih =>
    intro depth
    cases members with
    | nil => exact ⟨.object (.stop .closed), .emptyObject .nil, rfl, rfl⟩
    | cons m ms =>
      obtain ⟨cs, members, hcs, hspell, hvalues, hdistinct⟩ := members_comeBack hstyle depth ih
      refine ⟨.object members, ?_, ?_, ?_⟩
      · have hobject := Spells.object (hstyle.beforeItem depth) hspell
        rw [← hcs] at hobject
        simpa [Value.write] using hobject
      · exact Node.value_object.2 ⟨room, _, rfl, hvalues, rfl⟩
      · have hnodup : members.keys.Nodup := by
          rw [← Members.keys_of_values hvalues, keys_sortedMembers]
          exact hkeys
        simp [Node.distinctKeys, hnodup, hdistinct]

end Written

/-- The text of a plain value denotes the value, and no object of the text repeats a key. -/
theorem parse_write {style : Style} (hstyle : style.IsBlank) {v : Value} (hv : v.Plain deepest) :
    Value.parse (String.ofList (v.write style 0)) = .ok v.sorted ∧
      (Outline.of (String.ofList (v.write style 0))).root.distinctKeys = true := by
  obtain ⟨n, hspell, hvalue, hdistinct⟩ := hv.comesBack hstyle 0
  have htext : SpellsText (String.ofList (v.write style 0)).toList n :=
    ⟨[], _, [], .nil, hspell, .nil, by simp⟩
  obtain ⟨houtline, _⟩ := spellsText_iff.1 htext
  refine ⟨Value.parse_of_outline houtline hvalue, ?_⟩
  rw [houtline]
  exact hdistinct

end DownloadReport.Json

import DownloadReport.Proofs.Agreement
import DownloadReport.Proofs.Scanning

/-! Nothing but JSON is read. A reader looks at a text only as far as its shape wants it to, and passes
    over the rest; all the same, a place from which something was read is well formed
    (`Shape.skim_of_read`), and so a text from which something was read is spelled by the grammar
    (`Shape.spellsText_of_readText`). The proof follows the shape. -/

namespace DownloadReport.Json

/-! ### What is seen -/

/-- Whether all items are well formed, up to the regular end of the list. -/
def Elements.Skims : Elements Place → Prop
  | .done => True
  | .fault _ => False
  | .next p tail => p.node.skim = .ok () ∧ tail.Skims

/-- Whether all members are well formed, up to the regular end of the object. -/
def Entries.Skims : Entries Place → Prop
  | .done => True
  | .fault _ => False
  | .entry _ x rest => (∃ p, x = .ok p ∧ p.node.skim = .ok ()) ∧ rest.Skims

/-- Whether all that is seen one level below is well formed. -/
def View.Skims : View Place → Prop
  | .list elements => elements.Skims
  | .object entries => entries.Skims
  | .null | .bool _ | .number _ | .string _ => True

theorem Items.skim_of_elements : ∀ {items : Items} {room : Nat},
    (items.elements room).Skims → items.skim = .ok ()
  | .stop s, _, h => by cases s <;> first | rfl | exact h.elim
  | .item _ _, _, ⟨hn, hrest⟩ => Items.skim_item.2 ⟨hn, Items.skim_of_elements hrest⟩

theorem Members.skim_of_entries : ∀ {members : Members} {room : Nat},
    (members.entries room).Skims → members.skim = .ok ()
  | .stop s, _, h => by cases s <;> first | rfl | exact h.elim
  | .bareKey key cut, _, h => by
    rw [Members.entries, Entries.ofKey] at h
    cases hkey : key.decode with
    | error f =>
      rw [hkey] at h
      exact h.elim
    | ok k =>
      rw [hkey] at h
      obtain ⟨⟨_, hp, _⟩, _⟩ := h
      cases hp
  | .member key n rest, _, h => by
    rw [Members.entries, Entries.ofKey] at h
    cases hkey : key.decode with
    | error f =>
      rw [hkey] at h
      exact h.elim
    | ok k =>
      rw [hkey] at h
      obtain ⟨⟨_, ⟨⟩, hn⟩, hrest⟩ := h
      exact Members.skim_member.2
        ⟨StringText.closed_of_decode hkey, hn, Members.skim_of_entries hrest⟩

/-- A place is well formed when all that is seen there is. -/
theorem Place.skim_of_view {p : Place} {w : View Place} (h : p.view = .ok w) (hw : w.Skims) :
    p.node.skim = .ok () := by
  obtain ⟨n, room⟩ := p
  cases n with
  | null | bool _ => rfl
  | number n =>
    obtain ⟨_, hx, _⟩ := map_eq_ok_iff.1 h
    exact NumberText.skim_eq_ok_iff.2 (NumberText.fault_of_value hx)
  | string s =>
    obtain ⟨_, hs, _⟩ := map_eq_ok_iff.1 h
    exact StringText.skim_eq_ok_iff.2 (StringText.closed_of_decode hs)
  | list items =>
    cases room <;> cases h
    · exact hw.elim
    · exact Items.skim_of_elements hw
  | object members =>
    cases room <;> cases h
    · exact hw.elim
    · exact Members.skim_of_entries hw
  | missing | stray | brokenWord _ => exact nomatch h

/-! ### Items and members -/

/-- Items that were all read are well formed. -/
theorem skims_of_readElements {α : Type} {read : Place → Except ReadError α}
    (hread : ∀ {p a}, read p = .ok a → p.node.skim = .ok ()) {elements : Elements Place}
    {as : List α} (h : readElements read elements = .ok as) : elements.Skims := by
  induction elements generalizing as with
  | done => trivial
  | fault f => exact nomatch h
  | next p tail ih =>
    simp only [readElements, bind_eq_ok_iff] at h
    obtain ⟨a, ha, as, has, _⟩ := h
    exact ⟨hread ha, ih has⟩

/-- Members each of which was read or passed over are well formed. -/
theorem skims_of_readEntries {τ : Type}
    {put : String → Except Fault Place → τ → Option (Except ReadError τ)}
    (hput : ∀ {key x slots filled}, put key x slots = some (.ok filled) →
      ∃ p, x = .ok p ∧ p.node.skim = .ok ()) {entries : Entries Place} {slots filled : τ}
    (h : readEntries put entries slots = .ok filled) : entries.Skims := by
  induction entries generalizing slots with
  | done => trivial
  | fault f => exact nomatch h
  | entry key x rest ih =>
    simp only [readEntries] at h
    split at h
    next outcome houtcome =>
      obtain ⟨slots', hslots, hrest⟩ := bind_eq_ok_iff.1 h
      exact ⟨hput (hslots ▸ houtcome), ih hrest⟩
    next =>
      simp only [bind_eq_ok_iff, liftFault_eq_ok_iff] at h
      obtain ⟨p, hp, _, hskim, hrest⟩ := h
      exact ⟨⟨p, hp, hskim⟩, ih hrest⟩

/-- Nothing but the regular end may be left of a list. -/
theorem skims_of_checkSurplus {fields : Nat} {elements : Elements Place}
    (h : checkSurplus fields elements = .ok ()) : elements.Skims := by
  cases elements with
  | done => trivial
  | fault f => cases f <;> exact nomatch h
  | next p tail => exact nomatch h

/-! ### Reading -/

mutual
/-- A place from which something was read is well formed. -/
theorem Shape.skim_of_read : ∀ {α : Type} (s : Shape α) {p : Place} {a : α},
    s.read p = .ok a → p.node.skim = .ok ()
  | _, .string, _, _, h => Place.skim_of_view (read_string_iff.1 h) trivial
  | _, .signed, _, _, h => by
    obtain ⟨_, hw⟩ := read_signed_iff.1 h
    exact Place.skim_of_view hw trivial
  | _, .anything, _, _, h => Node.skim_of_value (liftFault_eq_ok_iff.1 h)
  | _, .nullable s, _, _, h => by
    obtain ⟨w, hw, ⟨rfl, _⟩ | ⟨_, b, hb, _⟩⟩ := read_nullable_view_iff.1 h
    · exact Place.skim_of_view hw trivial
    · exact Shape.skim_of_read s hb
  | _, .list s, _, _, h => by
    simp only [Shape.read, bind_eq_ok_iff, liftFault_eq_ok_iff] at h
    obtain ⟨w, hw, h⟩ := h
    cases w with
    | list elements =>
      exact Place.skim_of_view hw (skims_of_readElements (fun hp => Shape.skim_of_read s hp) h)
    | null | bool _ | number _ | string _ | object _ => exact nomatch h
  | _, .record _ fields, _, _, h => by
    simp only [Shape.read, bind_eq_ok_iff, liftFault_eq_ok_iff] at h
    obtain ⟨w, hw, h⟩ := h
    cases w with
    | list elements =>
      simp only [bind_eq_ok_iff, Prod.exists] at h
      obtain ⟨_, _, hfields, _, hsurplus, _⟩ := h
      exact Place.skim_of_view hw
        (Fields.skims_of_readList fields hfields (skims_of_checkSurplus hsurplus))
    | object entries =>
      simp only [bind_eq_ok_iff] at h
      obtain ⟨slots, hslots, _⟩ := h
      exact Place.skim_of_view hw
        (skims_of_readEntries (fun hput => Fields.skim_of_put fields hput) hslots)
    | null | bool _ | number _ | string _ => exact nomatch h
  | _, .forms _ _, _, _, h => by
    obtain ⟨v, hv, _⟩ := read_forms_iff.1 h
    exact Node.skim_of_value hv
  | _, .refine s _, _, _, h => by
    obtain ⟨a, ha, _⟩ := read_refine_iff.1 h
    exact Shape.skim_of_read s ha
/-- What a slot was filled from is well formed. -/
theorem Fields.skim_of_put : ∀ {α : Type} (f : Fields α) {key : String} {x : Except Fault Place}
    {slots filled : f.Slots}, f.put key x slots = some (.ok filled) →
    ∃ p, x = .ok p ∧ p.node.skim = .ok ()
  | _, .build _, _, _, _, _, h => nomatch h
  | _, @Fields.field _ β before k s absent, key, x, slots, _, h => by
    obtain ⟨earlier, slot⟩ : before.Slots × Option β := slots
    simp only [Fields.put] at h
    split at h
    · have h := Option.some.inj h
      cases slot with
      | some _ => exact nomatch h
      | none =>
        obtain ⟨p, hp, h⟩ := bind_eq_ok_iff.1 h
        obtain ⟨b, hb, _⟩ := bind_eq_ok_iff.1 h
        exact ⟨p, liftFault_eq_ok_iff.1 hp, Shape.skim_of_read s hb⟩
    · obtain ⟨outcome, hput, hmap⟩ := Option.map_eq_some_iff.1 h
      obtain ⟨earlier', hearlier, _⟩ := map_eq_ok_iff.1 hmap
      exact Fields.skim_of_put before (hearlier ▸ hput)
/-- A list whose first items were read as fields is well formed when the rest of it is. -/
theorem Fields.skims_of_readList : ∀ {α : Type} (f : Fields α) {name : String} {total : Nat}
    {elements : Elements Place} {a : α} {rest : Elements Place},
    f.readList name total elements = .ok (a, rest) → rest.Skims → elements.Skims
  | _, .build _, _, _, _, _, _, h, hrest => by
    cases h
    exact hrest
  | _, .field before _ s absent, _, _, _, _, _, h, hrest => by
    simp only [Fields.readList, bind_eq_ok_iff, Prod.exists] at h
    obtain ⟨make, middle, hbefore, h⟩ := h
    refine Fields.skims_of_readList before hbefore ?_
    cases middle with
    | done => trivial
    | fault f => exact nomatch h
    | next p tail =>
      obtain ⟨b, hb, h⟩ := bind_eq_ok_iff.1 h
      cases h
      exact ⟨Shape.skim_of_read s hb, hrest⟩
end

/-- A text from which something was read is a text of JSON. -/
theorem Shape.spellsText_of_readText {α : Type} {s : Shape α} {text : String} {a : α}
    (h : s.readText text = .ok a) : SpellsText text.toList (Outline.of text).root := by
  obtain ⟨hread, hend⟩ := Shape.readText_eq_ok_iff.1 h
  have houtline : Outline.of text = ⟨(Outline.of text).root, false⟩ := by rw [← hend]
  exact spellsText_iff.2 ⟨houtline, s.skim_of_read hread⟩

end DownloadReport.Json

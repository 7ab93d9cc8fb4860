import DownloadReport.Proofs.KeyOrder
import DownloadReport.Proofs.Readers
import DownloadReport.Proofs.Scanning

/-! The order of members. Two texts may differ in blanks and in the order in which the members of
    their objects come, at any depth. When no object of the one repeats a key, both have the same
    value (`Node.Reordered.value`), so whatever is decoded of the value is the same; the reader that
    walks through the text meets the members in another order, but it agrees with the value
    (`decoding_reordered`). -/

namespace DownloadReport

namespace Json

mutual
/-- Outlines that differ in the order of members only. -/
inductive Node.Reordered : Node → Node → Prop where
  | same (n : Node) : Node.Reordered n n
  | list {items items' : Items} (h : Items.Reordered items items') :
      Node.Reordered (.list items) (.list items')
  | object {members members' : Members} (h : Members.Reordered members members') :
      Node.Reordered (.object members) (.object members')
/-- Lists whose items differ in the order of members only. -/
inductive Items.Reordered : Items → Items → Prop where
  | stop (s : ListStop) : Items.Reordered (.stop s) (.stop s)
  | item {n n' : Node} {rest rest' : Items} (hn : Node.Reordered n n')
      (hrest : Items.Reordered rest rest') : Items.Reordered (.item n rest) (.item n' rest')
/-- The same members in another order, with values that differ in the order of members only. -/
inductive Members.Reordered : Members → Members → Prop where
  | stop (s : ObjectStop) : Members.Reordered (.stop s) (.stop s)
  | member (key : StringText) {n n' : Node} {rest rest' : Members} (hn : Node.Reordered n n')
      (hrest : Members.Reordered rest rest') :
      Members.Reordered (.member key n rest) (.member key n' rest')
  | swap (key key' : StringText) (n n' : Node) (rest : Members) :
      Members.Reordered (.member key n (.member key' n' rest))
        (.member key' n' (.member key n rest))
  | trans {a b c : Members} (hab : Members.Reordered a b) (hbc : Members.Reordered b c) :
      Members.Reordered a c
end

/-! ### Keys -/

/-- The key of the first member comes first, if it denotes a text. -/
theorem Members.keys_member (key : StringText) (n : Node) (rest : Members) :
    (Members.member key n rest).keys = key.decode.toOption.toList ++ rest.keys := by
  rw [Members.keys]
  cases key.decode <;> rfl

theorem Members.Reordered.keys : ∀ {members members' : Members}, members.Reordered members' →
    members.keys.Perm members'.keys
  | _, _, .stop _ => .refl _
  | _, _, .member key _ hrest => by
    rw [Members.keys_member, Members.keys_member]
    exact (Members.Reordered.keys hrest).append_left _
  | _, _, .swap key key' _ _ rest => by
    rw [Members.keys_member, Members.keys_member, Members.keys_member, Members.keys_member]
    exact List.perm_append_comm_assoc _ _ _
  | _, _, .trans hab hbc => (Members.Reordered.keys hab).trans (Members.Reordered.keys hbc)

mutual
/-- No key comes twice in another order either. -/
theorem Node.Reordered.distinctKeys : ∀ {n n' : Node}, n.Reordered n' →
    n.distinctKeys = n'.distinctKeys
  | _, _, .same _ => rfl
  | _, _, .list h => by
    simp only [Node.distinctKeys]
    exact Items.Reordered.distinctKeys h
  | _, _, .object h => by
    simp only [Node.distinctKeys, h.keys.nodup_iff, Members.Reordered.distinctKeys h]
theorem Items.Reordered.distinctKeys : ∀ {items items' : Items}, items.Reordered items' →
    items.distinctKeys = items'.distinctKeys
  | _, _, .stop _ => rfl
  | _, _, .item hn hrest => by
    simp only [Items.distinctKeys, Node.Reordered.distinctKeys hn,
      Items.Reordered.distinctKeys hrest]
theorem Members.Reordered.distinctKeys : ∀ {members members' : Members},
    members.Reordered members' → members.distinctKeys = members'.distinctKeys
  | _, _, .stop _ => rfl
  | _, _, .member _ hn hrest => by
    simp only [Members.distinctKeys, Node.Reordered.distinctKeys hn,
      Members.Reordered.distinctKeys hrest]
  | _, _, .swap _ _ n n' _ => by
    simp only [Members.distinctKeys]
    exact Bool.and_left_comm _ _ _
  | _, _, .trans hab hbc =>
    (Members.Reordered.distinctKeys hab).trans (Members.Reordered.distinctKeys hbc)
end

/-! ### Values -/

mutual
/-- Outlines that differ in the order of members only have one value, when no key comes twice. -/
theorem Node.Reordered.value : ∀ {n n' : Node}, n.Reordered n' → n.distinctKeys = true →
    ∀ {room : Nat} {v : Value}, n.value room = .ok v → n'.value room = .ok v
  | _, _, .same _, _, _, _, h => h
  | _, _, .list hitems, hdistinct, _, _, h => by
    obtain ⟨r, vs, rfl, hvs, rfl⟩ := Node.value_list.1 h
    exact Node.value_list.2 ⟨r, vs, rfl, Items.Reordered.values hitems hdistinct hvs, rfl⟩
  | .object members, .object members', .object hmembers, hdistinct, _, _, h => by
    obtain ⟨r, ms, rfl, hms, rfl⟩ := Node.value_object.1 h
    obtain ⟨hkeys, hvalues⟩ := Bool.and_eq_true_iff.1 hdistinct
    obtain ⟨ms', hms', hperm⟩ := Members.Reordered.values hmembers hvalues hms
    have hnodup : (ms.map Prod.fst).Nodup := by
      rw [Members.keys_of_values hms]
      exact of_decide_eq_true hkeys
    exact Node.value_object.2
      ⟨r, ms', rfl, hms', congrArg Value.object (sortMembers_eq_of_perm hnodup hperm)⟩
theorem Items.Reordered.values : ∀ {items items' : Items}, items.Reordered items' →
    items.distinctKeys = true → ∀ {room : Nat} {vs : List Value},
    items.values room = .ok vs → items'.values room = .ok vs
  | _, _, .stop _, _, _, _, h => h
  | _, _, .item hn hrest, hdistinct, _, _, h => by
    obtain ⟨v, ws, hv, hws, rfl⟩ := Items.values_item.1 h
    obtain ⟨hdn, hdrest⟩ := Bool.and_eq_true_iff.1 hdistinct
    exact Items.values_item.2 ⟨v, ws, Node.Reordered.value hn hdn hv,
      Items.Reordered.values hrest hdrest hws, rfl⟩
theorem Members.Reordered.values : ∀ {members members' : Members}, members.Reordered members' →
    members.distinctKeys = true → ∀ {room : Nat} {ms : List (String × Value)},
    members.values room = .ok ms → ∃ ms', members'.values room = .ok ms' ∧ ms.Perm ms'
  | _, _, .stop _, _, _, ms, h => ⟨ms, h, .refl _⟩
  | _, _, .member key hn hrest, hdistinct, _, _, h => by
    obtain ⟨k, v, ns, hk, hv, hns, rfl⟩ := Members.values_member.1 h
    obtain ⟨hdn, hdrest⟩ := Bool.and_eq_true_iff.1 hdistinct
    obtain ⟨ns', hns', hperm⟩ := Members.Reordered.values hrest hdrest hns
    exact ⟨(k, v) :: ns', Members.values_member.2
      ⟨k, v, ns', hk, Node.Reordered.value hn hdn hv, hns', rfl⟩, hperm.cons _⟩
  | _, _, .swap _ _ _ _ _, _, _, _, h => by
    obtain ⟨k, v, _, hk, hv, hrest, rfl⟩ := Members.values_member.1 h
    obtain ⟨k', v', ns, hk', hv', hns, rfl⟩ := Members.values_member.1 hrest
    have hbehind := Members.values_member.2 ⟨k, v, ns, hk, hv, hns, rfl⟩
    exact ⟨(k', v') :: (k, v) :: ns,
      Members.values_member.2 ⟨k', v', _, hk', hv', hbehind, rfl⟩, .swap _ _ _⟩
  | _, _, .trans hab hbc, hdistinct, _, _, h => by
    obtain ⟨_, hb, hfirst⟩ := Members.Reordered.values hab hdistinct h
    rw [Members.Reordered.distinctKeys hab] at hdistinct
    obtain ⟨ms', hc, hsecond⟩ := Members.Reordered.values hbc hdistinct hb
    exact ⟨ms', hc, hfirst.trans hsecond⟩
end

/-! ### Texts -/

/-- A string as it is written when all its characters stand for themselves. -/
def StringText.plain (s : String) : StringText := ⟨s.toList.map .char, .closed⟩

/-- Texts of values that differ in blanks and in the order of members only. -/
def Reordered (text text' : String) : Prop :=
  ∃ n n', SpellsText text.toList n ∧ SpellsText text'.toList n' ∧ n.Reordered n'

section Text

variable {text text' : String} {v : Value}

theorem Reordered.distinctKeys (h : Reordered text text') :
    (Outline.of text).root.distinctKeys = (Outline.of text').root.distinctKeys := by
  obtain ⟨n, n', hn, hn', hreordered⟩ := h
  rw [(spellsText_iff.1 hn).1, (spellsText_iff.1 hn').1]
  exact hreordered.distinctKeys

theorem Reordered.parse (h : Reordered text text')
    (hdistinct : (Outline.of text).root.distinctKeys = true) (hparse : Value.parse text = .ok v) :
    Value.parse text' = .ok v := by
  obtain ⟨n, n', hn, hn', hreordered⟩ := h
  rw [Value.parse_eq_ok_iff, (spellsText_iff.1 hn).1] at hparse
  rw [(spellsText_iff.1 hn).1] at hdistinct
  exact Value.parse_of_outline (spellsText_iff.1 hn').1 (hreordered.value hdistinct hparse.1)

end Text

end Json

open Json (Value Outline Reordered spellsText_iff)

/-- What the value of a text decides is the same for texts with the same value. -/
theorem decodeWith_congr {α : Type} (next : Value → Decoding α) {text text' : String}
    (h : Value.parse text' = Value.parse text) : decodeWith next text' = decodeWith next text := by
  rw [decodeWith, decodeWith, parse, parse, h]

/-- Two texts that are read as the same raw report, or both as none, become the same download with
    the same events, end with the same error, or are both refused for their shape. -/
theorem ofJson_of_agree {text text' : String}
    (h : Agree Eq (Shapes.rawDownload.readText text) (Shapes.rawDownload.readText text')) :
    Download.ofJson text' = Download.ofJson text ∨
      ∃ reason reason', Download.ofJson text = .fail (.json reason) ∧
        Download.ofJson text' = .fail (.json reason') := by
  rw [Download.ofJson, Download.ofJson]
  generalize Shapes.rawDownload.readText text = read at h ⊢
  generalize Shapes.rawDownload.readText text' = read' at h ⊢
  cases h with
  | ok h => exact .inl (by rw [h])
  | error e e' => exact .inr ⟨e.message, e'.message, rfl, rfl⟩

/-- The order of members makes no difference. Texts that differ in it, at any depth, and in blanks
    are decoded to the same downloads or to the same errors, with the same events; the reader that
    walks through the text may refuse them for their shape with different words. -/
theorem decoding_reordered {text text' : String} {v : Value} (h : Reordered text text')
    (hparse : Value.parse text = .ok v) (hdistinct : (Outline.of text).root.distinctKeys = true) :
    decode text' = decode text ∧ decodeAll text' = decodeAll text ∧
      (Download.ofJson text' = Download.ofJson text ∨
        ∃ reason reason', Download.ofJson text = .fail (.json reason) ∧
          Download.ofJson text' = .fail (.json reason')) := by
  have hparse' : Value.parse text' = .ok v := h.parse hdistinct hparse
  have hsame : Value.parse text' = Value.parse text := hparse'.trans hparse.symm
  refine ⟨decodeWith_congr decodeValue hsame, decodeWith_congr decodeValues hsame,
    ofJson_of_agree ?_⟩
  -- Both texts are read as their value is, and they have the same.
  have hread := Json.Shape.readText_agrees Shapes.wellKeyed_rawDownload hparse hdistinct
  have hread' := Json.Shape.readText_agrees Shapes.wellKeyed_rawDownload hparse'
    (h.distinctKeys ▸ hdistinct)
  exact agree_eq_iff.2 fun raw =>
    (agree_eq_iff.1 hread raw).trans (agree_eq_iff.1 hread' raw).symm

/-- A report whose members, and those of the file in it, come in another order and with blanks. -/
theorem decoding_reordered_file :
    decode " \x7b \"files\": [\x7b\"path\":\"p\", \"index\":\"1\"\x7d],\n \"gid\": \"g\"\x7d" =
      ⟨[.decoded "g" .unreported], .ok { gid := "g", files := [{ index := 1, path := "p" }] }⟩ := by
  have hreordered : Reordered
      "\x7b\"gid\":\"g\",\"files\":[\x7b\"index\":\"1\",\"path\":\"p\"\x7d]\x7d"
      " \x7b \"files\": [\x7b\"path\":\"p\", \"index\":\"1\"\x7d],\n \"gid\": \"g\"\x7d" :=
    ⟨.object (.member (.plain "gid") (.string (.plain "g")) (.member (.plain "files")
        (.list (.item (.object (.member (.plain "index") (.string (.plain "1"))
          (.member (.plain "path") (.string (.plain "p")) (.stop .closed)))) (.stop .closed)))
        (.stop .closed))),
      .object (.member (.plain "files")
        (.list (.item (.object (.member (.plain "path") (.string (.plain "p"))
          (.member (.plain "index") (.string (.plain "1")) (.stop .closed)))) (.stop .closed)))
        (.member (.plain "gid") (.string (.plain "g")) (.stop .closed))),
      spellsText_iff.2 ⟨by cbv, by cbv⟩, spellsText_iff.2 ⟨by cbv, by cbv⟩,
      .object (.trans (.swap _ _ _ _ _) (.member _ (.list (.item (.object (.swap _ _ _ _ _))
        (.stop _))) (.member _ (.same _) (.stop _))))⟩
  have hparse : Value.parse
      "\x7b\"gid\":\"g\",\"files\":[\x7b\"index\":\"1\",\"path\":\"p\"\x7d]\x7d" =
      .ok (.object [("files", .array [.object [("index", .string "1"), ("path", .string "p")]]),
        ("gid", .string "g")]) := by cbv
  rw [(decoding_reordered hreordered hparse (by cbv)).1, decode_of_not_reply hparse rfl]
  rfl

end DownloadReport

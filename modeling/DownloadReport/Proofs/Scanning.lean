import DownloadReport.Proofs.Grammar

/-! The scanner is exact for the grammar. It finds what is spelled, whatever follows (`findsSpelled`), and
    a well-formed node that it finds is spelled by the characters it took (`findsOnlySpelled`). So a
    text has a well-formed outline and nothing behind it just when it is a spelled value between
    blanks (`spellsText_iff`). Both are inductions on the number of steps, which values, items and
    members share. -/

namespace DownloadReport.Json

/-! ### What is spelled is found -/

/-- The node of a word that is spelled out. -/
theorem wordNode_spelled (node : Node) (letters : String) (more : List Char) :
    wordNode node letters (letters.toList ++ more) = (node, more) := by
  have hscan : ∀ word : List Char, scanWord word (word ++ more) = (none, more) := by
    intro word
    induction word with
    | nil => rfl
    | cons c word ih => simpa [scanWord] using ih
  rw [wordNode, hscan]

/-- The scanner finds what is spelled when it may go on for `fuel` steps, which is for half as many
    characters. -/
structure FindsSpelled (fuel : Nat) : Prop where
  node : ∀ {cs n}, Spells cs n → 2 * cs.length ≤ fuel → ∀ {a more}, Blank a → EndsNumber more →
    scanNode fuel (a ++ (cs ++ more)) = (n, more)
  items : ∀ {cs items}, SpellsItems cs items → 2 * cs.length ≤ fuel → ∀ more,
    scanItems fuel (cs ++ more) = (items, more)
  members : ∀ {cs members}, SpellsMembers cs members → 2 * cs.length ≤ fuel → ∀ more,
    scanMembers fuel (cs ++ more) = (members, more)

theorem FindsSpelled.zero : FindsSpelled 0 where
  node h hf := by have := h.length_pos; omega
  items h hf := by obtain ⟨c, r, rfl, _⟩ := h.begins; simp at hf
  members h hf := by cases h <;> simp at hf

/-- No word, string, list or object begins like a number. -/
theorem ne_of_numberStart {c x : Char} (hc : c = '-' ∨ c.isDigit = true)
    (hx : x ∈ ['n', 't', 'f', '"', '[', '{']) : c ≠ x := by
  rintro rfl
  rcases hc with rfl | hc
  · simp at hx
  · simp only [List.mem_cons, List.not_mem_nil, or_false] at hx
    rcases hx with rfl | rfl | rfl | rfl | rfl | rfl <;> simp at hc

theorem scanNode_number (fuel : Nat) {cs a more : List Char} {n : NumberText}
    (h : SpellsNumber cs n) (ha : Blank a) (hm : EndsNumber more) :
    scanNode (fuel + 1) (a ++ (cs ++ more)) = (.number n, more) := by
  have hscan := h.scan hm
  obtain ⟨c, r, rfl, hblank, _⟩ := (Spells.number h).begins
  obtain ⟨_, _, ⟨⟩, hc⟩ := h.begins
  have hne := fun x => @ne_of_numberStart c x hc
  rw [scanNode, List.cons_append, skipBlank_append ha hblank]
  simp only [List.cons_append] at hscan
  simp [hne, hc, hscan]

theorem FindsSpelled.nodeStep {fuel : Nat} (ih : FindsSpelled fuel) {cs : List Char} {n : Node}
    (h : Spells cs n) (hf : 2 * cs.length ≤ fuel + 1) {a more : List Char} (ha : Blank a)
    (hm : EndsNumber more) : scanNode (fuel + 1) (a ++ (cs ++ more)) = (n, more) := by
  cases h with
  | number h => exact scanNode_number fuel h ha hm
  | null =>
    rw [scanNode, List.cons_append, skipBlank_append ha (by decide)]
    exact wordNode_spelled .null "ull" more
  | boolTrue =>
    rw [scanNode, List.cons_append, skipBlank_append ha (by decide)]
    exact wordNode_spelled (.bool true) "rue" more
  | boolFalse =>
    rw [scanNode, List.cons_append, skipBlank_append ha (by decide)]
    exact wordNode_spelled (.bool false) "alse" more
  | string h =>
    rw [scanNode, List.cons_append, skipBlank_append ha (by decide)]
    simp only [h.scan more]
  | emptyList hb =>
    rw [scanNode, List.cons_append, skipBlank_append ha (by decide), List.append_assoc]
    simp only [List.cons_append, List.nil_append]
    rw [skipBlank_append hb (by decide)]
    rfl
  | list hb h =>
    have hitems := ih.items h (by simp at hf ⊢; omega) more
    obtain ⟨c, r, rfl, hblank, hc⟩ := h.begins
    rw [scanNode, List.cons_append, skipBlank_append ha (by decide), List.append_assoc]
    simp only [List.cons_append] at hitems ⊢
    rw [skipBlank_append hb hblank]
    simp [hc, hitems]
  | emptyObject hb =>
    rw [scanNode, List.cons_append, skipBlank_append ha (by decide), List.append_assoc]
    simp only [List.cons_append, List.nil_append]
    rw [skipBlank_append hb (by decide)]
    rfl
  | object hb h =>
    have hmembers := ih.members h (by simp at hf ⊢; omega) more
    rw [scanNode, List.cons_append, skipBlank_append ha (by decide), List.append_assoc]
    simp only [List.cons_append]
    rw [skipBlank_append hb (by decide)]
    simp only [hmembers]

theorem FindsSpelled.itemsStep {fuel : Nat} (ih : FindsSpelled fuel) {cs : List Char}
    {items : Items} (h : SpellsItems cs items) (hf : 2 * cs.length ≤ fuel + 1) (more : List Char) :
    scanItems (fuel + 1) (cs ++ more) = (items, more) := by
  cases h with
  | @last cs b n h hb =>
    have hend : EndsNumber (b ++ ']' :: more) :=
      endsNumber_append hb (endsNumber_cons (.inr (.inl rfl)) more)
    have hnode := ih.node h (by simp at hf ⊢; omega) .nil hend
    rw [List.nil_append] at hnode
    rw [scanItems]
    simp only [List.append_assoc, List.cons_append, List.nil_append, hnode]
    rw [skipBlank_append hb (by decide)]
    rfl
  | @more cs b a ds n rest h hb ha hr =>
    have hend : EndsNumber (b ++ ',' :: (a ++ (ds ++ more))) :=
      endsNumber_append hb (endsNumber_cons (.inl rfl) _)
    have hnode := ih.node h (by simp at hf ⊢; omega) .nil hend
    have hrest := ih.items hr (by simp at hf ⊢; omega) more
    obtain ⟨c, r, rfl, hblank, hc⟩ := hr.begins
    rw [List.nil_append] at hnode
    rw [scanItems]
    simp only [List.append_assoc, List.cons_append] at hnode hrest ⊢
    simp only [hnode]
    rw [skipBlank_append hb (by decide)]
    simp only
    rw [skipBlank_append ha hblank]
    simp [hc, hrest]

theorem FindsSpelled.membersStep {fuel : Nat} (ih : FindsSpelled fuel) {cs : List Char}
    {members : Members} (h : SpellsMembers cs members) (hf : 2 * cs.length ≤ fuel + 1)
    (more : List Char) : scanMembers (fuel + 1) (cs ++ more) = (members, more) := by
  cases h with
  | @last ks b a cs c ps n hk hb ha h hc =>
    have hend : EndsNumber (c ++ '}' :: more) :=
      endsNumber_append hc (endsNumber_cons (.inr (.inr (.inl rfl))) more)
    have hnode := ih.node h (by simp at hf ⊢; omega) ha hend
    rw [scanMembers]
    simp only [List.append_assoc, List.cons_append, List.nil_append, hk.scan]
    rw [skipBlank_append hb (by decide)]
    simp only [hnode]
    rw [skipBlank_append hc (by decide)]
    rfl
  | @more ks b a cs c d ds ps n rest hk hb ha h hc hd hr =>
    have hend : EndsNumber (c ++ ',' :: (d ++ '"' :: (ds ++ more))) :=
      endsNumber_append hc (endsNumber_cons (.inl rfl) _)
    have hnode := ih.node h (by simp at hf ⊢; omega) ha hend
    have hrest := ih.members hr (by simp at hf ⊢; omega) more
    rw [scanMembers]
    simp only [List.append_assoc, List.cons_append, hk.scan]
    rw [skipBlank_append hb (by decide)]
    simp only [hnode]
    rw [skipBlank_append hc (by decide)]
    simp only
    rw [skipBlank_append hd (by decide)]
    simp only [hrest]

theorem findsSpelled (fuel : Nat) : FindsSpelled fuel := by
  induction fuel with
  | zero => exact .zero
  | succ fuel ih => exact ⟨ih.nodeStep, ih.itemsStep, ih.membersStep⟩

/-! ### What is found is spelled -/

/-- What the scanner finds in `fuel` steps is spelled, if it is well formed. -/
structure FindsOnlySpelled (fuel : Nat) : Prop where
  node : ∀ {text n rest}, scanNode fuel text = (n, rest) → n.skim = .ok () →
    ∃ a cs, Blank a ∧ Spells cs n ∧ text = a ++ (cs ++ rest)
  items : ∀ {text items rest}, scanItems fuel text = (items, rest) → items.skim = .ok () →
    ∃ a cs, Blank a ∧ SpellsItems cs items ∧ text = a ++ (cs ++ rest)
  members : ∀ {text members rest}, scanMembers fuel text = (members, rest) →
    members.skim = .ok () → ∃ cs, SpellsMembers cs members ∧ text = cs ++ rest

theorem FindsOnlySpelled.zero : FindsOnlySpelled 0 where
  node h hs := by cases h; simp [Node.skim] at hs
  items h hs := by cases h; simp [ListStop.skim_stop] at hs
  members h hs := by cases h; simp [ObjectStop.skim_stop] at hs

/-- A word that was followed to its end is spelled out. -/
theorem of_wordNode {node n : Node} {letters : String} {text rest : List Char}
    (h : wordNode node letters text = (n, rest)) (hs : n.skim = .ok ()) :
    text = letters.toList ++ rest ∧ n = node := by
  have hscan : ∀ (word : List Char) {text rest : List Char},
      scanWord word text = (none, rest) → text = word ++ rest := by
    intro word
    induction word with
    | nil => intro text rest h; cases h; rfl
    | cons w word ih =>
      intro text rest h
      cases text with
      | nil => simp [scanWord] at h
      | cons c text =>
        simp only [scanWord] at h
        split at h
        next hw => rw [ih h, hw, List.cons_append]
        next => simp at h
  unfold wordNode at h
  split at h
  next hword => cases h; exact ⟨hscan _ hword, rfl⟩
  next => cases h; simp [Node.skim] at hs

theorem FindsOnlySpelled.listStep {fuel : Nat} (ih : FindsOnlySpelled fuel) {r rest : List Char}
    {n : Node}
    (h : (match skipBlank r with
      | [] => (Node.list (.stop .ended), [])
      | ']' :: rest => (.list (.stop .closed), rest)
      | r =>
        let (items, rest) := scanItems fuel r
        (.list items, rest)) = (n, rest))
    (hs : n.skim = .ok ()) : ∃ cs, Spells ('[' :: cs) n ∧ r = cs ++ rest := by
  obtain ⟨a, ha, hr⟩ := blank_skipped r
  split at h
  next => cases h; simp [Node.skim, ListStop.skim_stop] at hs
  next hskip =>
    cases h
    exact ⟨a ++ [']'], .emptyList ha, by simpa [hskip] using hr⟩
  next =>
    cases hscan : scanItems fuel (skipBlank r) with
    | mk items more =>
      rw [hscan] at h
      cases h
      obtain ⟨b, cs, hb, hcs, hskip⟩ := ih.items hscan hs
      refine ⟨(a ++ b) ++ cs, .list (ha.append hb) hcs, ?_⟩
      rw [hr, hskip]
      simp

theorem FindsOnlySpelled.objectStep {fuel : Nat} (ih : FindsOnlySpelled fuel) {r rest : List Char}
    {n : Node}
    (h : (match skipBlank r with
      | [] => (Node.object (.stop .ended), [])
      | '\x7d' :: rest => (.object (.stop .closed), rest)
      | '"' :: r =>
        let (members, rest) := scanMembers fuel r
        (.object members, rest)
      | r => (.object (.stop .keyless), r)) = (n, rest))
    (hs : n.skim = .ok ()) : ∃ cs, Spells ('\x7b' :: cs) n ∧ r = cs ++ rest := by
  obtain ⟨a, ha, hr⟩ := blank_skipped r
  split at h
  next => cases h; simp [Node.skim, ObjectStop.skim_stop] at hs
  next hskip =>
    cases h
    exact ⟨a ++ ['\x7d'], .emptyObject ha, by simpa [hskip] using hr⟩
  next r' hskip =>
    cases hscan : scanMembers fuel r' with
    | mk members more =>
      rw [hscan] at h
      cases h
      obtain ⟨cs, hcs, rfl⟩ := ih.members hscan hs
      exact ⟨a ++ '"' :: cs, .object ha hcs, by rw [hr, hskip]; simp⟩
  next => cases h; simp [Node.skim, ObjectStop.skim_stop] at hs

theorem FindsOnlySpelled.nodeStep {fuel : Nat} (ih : FindsOnlySpelled fuel) {text rest : List Char}
    {n : Node} (h : scanNode (fuel + 1) text = (n, rest)) (hs : n.skim = .ok ()) :
    ∃ a cs, Blank a ∧ Spells cs n ∧ text = a ++ (cs ++ rest) := by
  obtain ⟨a, ha, htext⟩ := blank_skipped text
  suffices hspelled : ∃ cs, Spells cs n ∧ skipBlank text = cs ++ rest by
    obtain ⟨cs, hcs, hskip⟩ := hspelled
    exact ⟨a, cs, ha, hcs, hskip ▸ htext⟩
  rw [scanNode] at h
  split at h
  next => cases h; simp [Node.skim] at hs
  next hskip =>
    obtain ⟨rfl, rfl⟩ := of_wordNode h hs
    exact ⟨_, .null, hskip⟩
  next hskip =>
    obtain ⟨rfl, rfl⟩ := of_wordNode h hs
    exact ⟨_, .boolTrue, hskip⟩
  next hskip =>
    obtain ⟨rfl, rfl⟩ := of_wordNode h hs
    exact ⟨_, .boolFalse, hskip⟩
  next r hskip =>
    cases hscan : scanString r with
    | mk s more =>
      rw [hscan] at h
      cases h
      have hstop : s.stop = .closed := StringText.skim_eq_ok_iff.1 hs
      obtain ⟨cs, rfl, hcs⟩ := SpellsString.of_scan hscan hstop
      cases s
      cases hstop
      exact ⟨'"' :: cs, .string hcs, hskip⟩
  next r hskip =>
    obtain ⟨cs, hcs, rfl⟩ := ih.listStep h hs
    exact ⟨_, hcs, hskip⟩
  next r hskip =>
    obtain ⟨cs, hcs, rfl⟩ := ih.objectStep h hs
    exact ⟨_, hcs, hskip⟩
  next c r _ _ _ _ _ _ hskip =>
    split at h
    · cases hscan : scanNumber (c :: r) with
      | mk number more =>
        rw [hscan] at h
        cases h
        obtain ⟨cs, hr, hcs⟩ := SpellsNumber.of_scan hscan (NumberText.skim_eq_ok_iff.1 hs)
        exact ⟨cs, .number hcs, hskip.trans hr⟩
    · cases h; simp [Node.skim] at hs

theorem FindsOnlySpelled.itemsStep {fuel : Nat} (ih : FindsOnlySpelled fuel)
    {text rest : List Char} {items : Items} (h : scanItems (fuel + 1) text = (items, rest))
    (hs : items.skim = .ok ()) :
    ∃ a cs, Blank a ∧ SpellsItems cs items ∧ text = a ++ (cs ++ rest) := by
  rw [scanItems] at h
  cases hnode : scanNode fuel text with
  | mk n behind =>
    rw [hnode] at h
    obtain ⟨b, hb, hbehind⟩ := blank_skipped behind
    dsimp only at h
    split at h
    next => cases h; simp [Items.skim_item, ListStop.skim_stop] at hs
    next hskip =>
      cases h
      obtain ⟨a, cs, ha, hcs, rfl⟩ := ih.node hnode (Items.skim_item.1 hs).1
      refine ⟨a, cs ++ (b ++ [']']), ha, .last hcs hb, ?_⟩
      rw [hbehind, hskip]
      simp
    next r hskip =>
      obtain ⟨d, hd, hr⟩ := blank_skipped r
      split at h
      next => cases h; simp [Items.skim_item, ListStop.skim_stop] at hs
      next =>
        cases hscan : scanItems fuel (skipBlank r) with
        | mk items' rest' =>
          rw [hscan] at h
          cases h
          obtain ⟨hn, hitems⟩ := Items.skim_item.1 hs
          obtain ⟨a, cs, ha, hcs, rfl⟩ := ih.node hnode hn
          obtain ⟨e, ds, he, hds, hskip'⟩ := ih.items hscan hitems
          refine ⟨a, _, ha, .more hcs hb (hd.append he) hds, ?_⟩
          rw [hbehind, hskip, hr, hskip']
          simp
    next => cases h; simp [Items.skim_item, ListStop.skim_stop] at hs

theorem FindsOnlySpelled.membersStep {fuel : Nat} (ih : FindsOnlySpelled fuel)
    {text rest : List Char} {members : Members} (h : scanMembers (fuel + 1) text = (members, rest))
    (hs : members.skim = .ok ()) :
    ∃ cs, SpellsMembers cs members ∧ text = cs ++ rest := by
  rw [scanMembers] at h
  cases hkey : scanString text with
  | mk key behindKey =>
    rw [hkey] at h
    obtain ⟨b, hb, hbehindKey⟩ := blank_skipped behindKey
    dsimp only at h
    split at h
    next => cases h; simp [Members.skim, bind_eq_ok_iff] at hs
    next r hcolon =>
      cases hnode : scanNode fuel r with
      | mk n behind =>
        rw [hnode] at h
        obtain ⟨c, hc, hbehind⟩ := blank_skipped behind
        dsimp only at h
        split at h
        next => cases h; simp [Members.skim_member, ObjectStop.skim_stop] at hs
        next hskip =>
          cases h
          obtain ⟨hstop, hn, _⟩ := Members.skim_member.1 hs
          obtain ⟨ks, rfl, hks⟩ := SpellsString.of_scan hkey hstop
          obtain ⟨a, cs, ha, hcs, rfl⟩ := ih.node hnode hn
          cases key
          cases hstop
          refine ⟨_, .last hks hb ha hcs hc, ?_⟩
          rw [hbehindKey, hcolon, hbehind, hskip]
          simp
        next r' hskip =>
          obtain ⟨d, hd, hr'⟩ := blank_skipped r'
          split at h
          next => cases h; simp [Members.skim_member, ObjectStop.skim_stop] at hs
          next => cases h; simp [Members.skim_member, ObjectStop.skim_stop] at hs
          next r'' hskip' =>
            cases hscan : scanMembers fuel r'' with
            | mk members' rest' =>
              rw [hscan] at h
              cases h
              obtain ⟨hstop, hn, hmembers⟩ := Members.skim_member.1 hs
              obtain ⟨ks, rfl, hks⟩ := SpellsString.of_scan hkey hstop
              obtain ⟨a, cs, ha, hcs, rfl⟩ := ih.node hnode hn
              obtain ⟨ds, hds, rfl⟩ := ih.members hscan hmembers
              cases key
              cases hstop
              refine ⟨_, .more hks hb ha hcs hc hd hds, ?_⟩
              rw [hbehindKey, hcolon, hbehind, hskip, hr', hskip']
              simp
          next => cases h; simp [Members.skim_member, ObjectStop.skim_stop] at hs
        next => cases h; simp [Members.skim_member, ObjectStop.skim_stop] at hs
    next => cases h; simp [Members.skim, bind_eq_ok_iff] at hs

theorem findsOnlySpelled (fuel : Nat) : FindsOnlySpelled fuel := by
  induction fuel with
  | zero => exact .zero
  | succ fuel ih => exact ⟨ih.nodeStep, ih.itemsStep, ih.membersStep⟩

/-! ### Whole texts -/

/-- A text spells a value just when its outline is a well-formed one and nothing stands behind it. -/
theorem spellsText_iff {text : String} {n : Node} :
    SpellsText text.toList n ↔ Outline.of text = ⟨n, false⟩ ∧ n.skim = .ok () := by
  constructor
  · rintro ⟨a, cs, b, ha, hcs, hb, htext⟩
    have hfuel : 2 * cs.length ≤ 2 * text.toList.length + 2 := by
      rw [htext]
      simp only [List.length_append]
      omega
    have hscan := (findsSpelled _).node hcs hfuel ha (endsNumber_blank hb)
    rw [← htext] at hscan
    simp [Outline.of, hscan, skipBlank_blank hb, hcs.skim]
  · rintro ⟨h, hs⟩
    unfold Outline.of at h
    dsimp only at h
    cases hscan : scanNode (2 * text.toList.length + 2) text.toList with
    | mk n' rest =>
      rw [hscan] at h
      simp only [Outline.mk.injEq, Bool.not_eq_false', List.isEmpty_iff] at h
      obtain ⟨rfl, hrest⟩ := h
      obtain ⟨a, cs, ha, hcs, htext⟩ := (findsOnlySpelled _).node hscan hs
      obtain ⟨b, hb, hb'⟩ := blank_skipped rest
      rw [hrest, List.append_nil] at hb'
      exact ⟨a, cs, b, ha, hcs, hb, hb' ▸ htext⟩

end DownloadReport.Json

import DownloadReport.Proofs.ObjectText
import DownloadReport.Proofs.TrackerTiers

/-! What a torrent says of itself, read alone and within a torrent. Both readings go through the members
    of an object in the same way and refuse the same ones for the same reason: a name that is no text,
    a second name, a key that denotes nothing. They part when there is no name. Within a torrent it is
    empty then, as everything is that a report leaves out; alone it has to be there
    (`info_alone_and_within`). -/

namespace DownloadReport

open Json (Value Shape Fields Node Members Entries Place Viewable ReadError SpellsText MemberText)
open Fieldwise

/-! ### Records with one field -/

namespace Json

variable {σ β : Type} [Viewable σ] {key : String} {s : Shape β}

/-- The slot of the only field of a record when the members of an object have been read. -/
def readSlot (key : String) (s : Shape β) : Entries σ → Option β → Except ReadError (Option β)
  | .done, slot => .ok slot
  | .fault f, _ => .error (.fault f)
  | .entry k x rest, slot =>
    if k = key then
      match slot with
      | some _ => .error (.duplicateField key)
      | none => do
        let y ← liftFault x
        let b ← s.read y
        readSlot key s rest (some b)
    else do
      let y ← liftFault x
      liftFault (Viewable.skim y)
      readSlot key s rest slot

/-- What a slot holds, or what stands for it when it was left empty. -/
def slotValue (key : String) (absent slot : Option β) : Except ReadError β :=
  match slot.or absent with
  | some b => .ok b
  | none => .error (.missingField key)

section Record

variable {α : Type} {make : β → α} {absent : Option β}

theorem readEntries_eq_readSlot (e : Entries σ) (slot : Option β) :
    readEntries (fun k y slots => ((Fields.build make).field key s absent).put k y slots) e
        ((), slot) =
      (readSlot key s e slot).map fun slot => ((), slot) := by
  fun_induction readSlot key s e slot with
  | case1 => rfl
  | case2 => rfl
  | case3 rest x b =>
    simp only [readEntries, Fields.put, if_true]
    rfl
  | case4 x rest ih =>
    simp only [readEntries, Fields.put, if_true] at ih ⊢
    cases liftFault x with
    | error e => rfl
    | ok y =>
      simp only [ok_bind]
      cases s.read y with
      | error e => rfl
      | ok b => exact ih b
  | case5 k x rest slot hk ih =>
    simp only [readEntries, Fields.put, if_neg hk, Option.map_none] at ih ⊢
    cases liftFault x with
    | error e => rfl
    | ok y =>
      simp only [ok_bind]
      cases liftFault (Viewable.skim y) with
      | error e => rfl
      | ok _ => exact ih

/-- A record with one field is read as its slot is. -/
theorem read_record_slot {name : String} {x : σ} {e : Entries σ}
    (hx : Viewable.view x = .ok (.object e)) :
    (Shape.record name ((Fields.build make).field key s absent)).read x =
      (readSlot key s e none >>= slotValue key absent).map make := by
  simp only [Shape.read, hx, liftFault, ok_bind, Fields.fresh, readEntries_eq_readSlot]
  cases readSlot key s e none with
  | error e => rfl
  | ok slot => cases slot <;> cases absent <;> rfl

end Record

/-- A text is read alike however many lists and objects may be opened. -/
theorem read_string_room (n : Node) (room room' : Nat) :
    Shape.string.read (⟨n, room⟩ : Place) = Shape.string.read (⟨n, room'⟩ : Place) := by
  cases n with
  -- A list or an object that may not be opened is still seen as one.
  | list items | object members => cases room <;> cases room' <;> rfl
  | missing | stray | null | bool b | brokenWord cut | number n | string s => rfl

theorem readSlot_room (room room' : Nat) : ∀ (members : Members) (slot : Option String),
    readSlot key .string (members.entries room) slot =
      readSlot key .string (members.entries room') slot
  | .stop s, slot => by cases s <;> rfl
  | .bareKey _ _, _ => rfl
  | .member k n rest, slot => by
    have ih := readSlot_room room room' rest
    have hskim : Viewable.skim (⟨n, room⟩ : Place) = Viewable.skim (⟨n, room'⟩ : Place) := rfl
    simp only [Members.entries, Entries.ofKey]
    cases k.decode with
    | error f => rfl
    | ok k => simp only [readSlot, liftFault, ok_bind, read_string_room n room room', hskim, ih]

/-- What one member can do to the slot: fill it, if it has the key and the slot is empty, or leave it. -/
theorem readSlot_entry_cases {k : String} {x : Except Fault σ} {rest : Entries σ}
    {slot result : Option β} (h : readSlot key s (.entry k x rest) slot = .ok result) :
    ∃ y, x = .ok y ∧
      ((k = key ∧ slot = none ∧ ∃ b, readSlot key s rest (some b) = .ok result) ∨
        (k ≠ key ∧ readSlot key s rest slot = .ok result)) := by
  simp only [readSlot] at h
  split at h
  next hkey =>
    cases slot with
    | some b => cases h
    | none =>
      obtain ⟨y, hy, h⟩ := bind_eq_ok_iff.1 h
      obtain ⟨b, _, hrest⟩ := bind_eq_ok_iff.1 h
      exact ⟨y, liftFault_eq_ok_iff.1 hy, .inl ⟨hkey, rfl, b, hrest⟩⟩
  next hkey =>
    obtain ⟨y, hy, h⟩ := bind_eq_ok_iff.1 h
    obtain ⟨_, _, hrest⟩ := bind_eq_ok_iff.1 h
    exact ⟨y, liftFault_eq_ok_iff.1 hy, .inr ⟨hkey, hrest⟩⟩

/-- Members are read up to the end only if their keys denote texts. -/
theorem exists_key_of_readSlot {k : StringText} {x : Except Fault σ} {rest : Entries σ}
    {slot result : Option β} (h : readSlot key s (.ofKey k x rest) slot = .ok result) :
    ∃ text, k.decode = .ok text ∧ readSlot key s (.entry text x rest) slot = .ok result := by
  rw [Entries.ofKey] at h
  cases hk : k.decode with
  | error f =>
    rw [hk] at h
    cases h
  | ok text =>
    rw [hk] at h
    exact ⟨text, rfl, h⟩

/-- A slot is filled at the end when it was before, or when its key is among those of the object. -/
theorem isSome_of_readSlot (room : Nat) : ∀ {members : Members} {slot result : Option β},
    readSlot key s (members.entries room) slot = .ok result →
      (result.isSome ↔ slot.isSome ∨ key ∈ members.keys)
  | .stop stop, slot, result, h => by
    cases stop with
    | closed =>
      cases h
      simp [Members.keys]
    | _ => cases h
  | .bareKey k cut, slot, result, h => by
    obtain ⟨_, _, hentry⟩ := exists_key_of_readSlot h
    obtain ⟨_, hvalue, _⟩ := readSlot_entry_cases hentry
    cases hvalue
  | .member k n rest, slot, result, h => by
    obtain ⟨text, hk, hentry⟩ := exists_key_of_readSlot h
    rw [Members.keys, hk, List.mem_cons]
    obtain ⟨_, _, ⟨hkey, rfl, b, hrest⟩ | ⟨hkey, hrest⟩⟩ := readSlot_entry_cases hentry
    · simp [isSome_of_readSlot room hrest, hkey]
    · rw [isSome_of_readSlot room hrest]
      simp [Ne.symm hkey]

/-! ### Texts -/

/-- A text that spells a value is read as the outline of the value is. -/
theorem Shape.readText_of_spells {α : Type} {s : Shape α} {text : String} {n : Node}
    (h : SpellsText text.toList n) : s.readText text = s.read (⟨n, deepest⟩ : Place) := by
  simp only [Shape.readText, (spellsText_iff.1 h).1, Outline.checkEnd, Bool.false_eq_true, if_false,
    liftFault]
  exact bind_pure _

/-- The text of an object with one member. -/
theorem spellsText_objectText {m : MemberText} {n : Node} (h : SpellsText m.value.toList n) :
    SpellsText (objectText [m]).toList
      (.object (.member ⟨m.key.toList.map charPiece, .closed⟩ n (.stop .closed))) := by
  obtain ⟨a, cs, b, ha, hcs, hb, htext⟩ := h
  obtain ⟨ks, hks, hkey⟩ := spells_writeString m.key
  refine ⟨[], _, [], .nil, .object m.blank.1 (.last hkey m.blank.2 ha hcs hb), .nil, ?_⟩
  simp [objectText, membersText, hks, htext]

end Json

/-! ### Alone and within a torrent -/

/-- How the reading of an object alone goes with its reading within a torrent of which nothing else is
    reported, when the object has the `keys`: both fail with the same error; or both have the name, as
    one of the keys says; or there is none, which only the reading alone takes for an error. -/
inductive InfoReadings (keys : List String) :
    Except ReadError TorrentInfo → Except ReadError Torrent → Prop where
  | refused (e : ReadError) : InfoReadings keys (.error e) (.error e)
  | named (i : TorrentInfo) (hname : "name" ∈ keys) :
      InfoReadings keys (.ok i) (.ok { info := some i })
  | nameless (hname : "name" ∉ keys) :
      InfoReadings keys (.error (.missingField "name")) (.ok { info := some { name := "" } })

/-- A torrent of which nothing else is reported is what it says of itself. -/
theorem read_torrent_of_info {σ : Type} [Viewable σ] {x y : σ} {e : Entries σ}
    (hx : Viewable.view x = .ok (.object (.entry "info" (.ok y) .done)))
    (hy : Viewable.view y = .ok (.object e)) :
    Shapes.torrent.read x =
      (Shapes.rawInfo.read y).map fun raw => { info := some { name := raw.name } } := by
  have htorrent : Shapes.rawTorrent.read x =
      (Shapes.rawInfo.read y).map fun raw => { info := some raw } := by
    simp only [Shapes.rawTorrent, Shape.read, hx, hy, Json.liftFault, ok_bind, Json.readEntries,
      Fields.optional, Fields.fresh, Fields.put, if_true]
    cases Shapes.rawInfo.read y <;> rfl
  rw [Shapes.torrent, Shapes.decoded, Shape.read, htorrent]
  cases Shapes.rawInfo.read y <;> rfl

theorem infoReadings_of_slot {keys : List String} {slot : Except ReadError (Option String)}
    (hslot : ∀ name, slot = .ok name → (name.isSome ↔ "name" ∈ keys)) :
    InfoReadings keys ((slot >>= Json.slotValue "name" none).map TorrentInfo.mk)
      (((slot >>= Json.slotValue "name" (some "")).map RawInfo.mk).map
        fun raw => { info := some { name := raw.name } }) := by
  cases slot with
  | error e => exact .refused e
  | ok name =>
    have hname := hslot name rfl
    cases name with
    | none => exact .nameless fun h => nomatch hname.2 h
    | some name => exact .named ⟨name⟩ (hname.1 rfl)

/-- An object in a text, read alone and within a torrent. -/
theorem infoReadings_text {m : MemberText} (hkey : m.key = "info") {members : Members}
    (htext : SpellsText m.value.toList (.object members)) :
    InfoReadings members.keys (Shapes.torrentInfo.readText m.value)
      (Shapes.torrent.readText (Json.objectText [m])) := by
  have hdecode := Json.decode_pieces m.key
  rw [hkey] at hdecode
  have hmember : Viewable.view (⟨.object (.member ⟨m.key.toList.map Json.charPiece, .closed⟩
      (.object members) (.stop .closed)), Json.deepest⟩ : Place) =
        .ok (.object (.entry "info" (.ok ⟨.object members, 126⟩) .done)) := by
    show Except.ok (Json.View.object (Entries.ofKey _ _ _)) = _
    rw [Entries.ofKey, hkey, hdecode]
    rfl
  rw [Shape.readText_of_spells htext, Shape.readText_of_spells (Json.spellsText_objectText htext),
    read_torrent_of_info hmember rfl]
  have halone : Shapes.torrentInfo.read (⟨.object members, Json.deepest⟩ : Place) = _ :=
    Json.read_record_slot rfl
  have hwithin : Shapes.rawInfo.read (⟨.object members, 126⟩ : Place) = _ :=
    Json.read_record_slot rfl
  -- Within the torrent one object more is open.
  rw [halone, hwithin, Json.readSlot_room 126 125]
  refine infoReadings_of_slot fun name hname => ?_
  rw [Json.isSome_of_readSlot 125 hname]
  simp

/-! ### In any torrent -/

/-- A field with a text is read of the member with its key, or else it may be absent. -/
theorem fieldReads_string_iff {ms : List (String × Value)} {key text : String}
    {absent : Option String} :
    Json.FieldReads ms key .string absent text ↔
      (key, .string text) ∈ ms ∨ (key ∉ ms.map Prod.fst ∧ absent = some text) := by
  have hstring : ∀ v : Value, Shape.string.read v = .ok text ↔ v = .string text := by
    intro v
    rw [Json.read_string_iff]
    constructor
    · intro h
      cases v <;> cases h
      rfl
    · rintro rfl
      rfl
  simp [Json.FieldReads, hstring]

variable {ms : List (String × Value)}

/-- The name that the members of an object give: it is a text, or empty if there is none. -/
def TorrentInfo.NamedBy (ms : List (String × Value)) (i : TorrentInfo) : Prop :=
  ("name", .string i.name) ∈ ms ∨ ("name" ∉ ms.map Prod.fst ∧ i.name = "")

/-- Alone, the name has to be there. -/
theorem readValue_torrentInfo_iff (hms : (ms.map Prod.fst).Nodup) {i : TorrentInfo} :
    Shapes.torrentInfo.readValue (.object ms) = .ok i ↔ ("name", .string i.name) ∈ ms := by
  have hkeyed : ((Fields.build TorrentInfo.mk).field "name" .string none).WellKeyed :=
    ⟨trivial, List.not_mem_nil, trivial⟩
  refine (Json.readMembers_eq_ok_iff hkeyed hms fun _ _ => rfl).trans ?_
  constructor
  · rintro ⟨_, name, rfl, rfl, hname⟩
    simpa using fieldReads_string_iff.1 hname
  · intro hname
    exact ⟨_, i.name, rfl, rfl, fieldReads_string_iff.2 (.inl hname)⟩

theorem made_torrentInfo_iff (hms : (ms.map Prod.fst).Nodup) {i : TorrentInfo} :
    Made (.object ms) i ↔ i.NamedBy ms := by
  have hfield : (∀ f ∈ fields, f.Reads ms (f.get i)) ↔
      (RecordField.text "name" TorrentInfo.name).Reads ms i.name :=
    List.forall_mem_singleton
  rw [made_object_iff hms, hfield]
  constructor
  · rintro ⟨_, hname, rfl⟩
    rcases fieldReads_string_iff.1 hname with hmem | ⟨habsent, hempty⟩
    · exact .inl hmem
    · exact .inr ⟨habsent, (Option.some.inj hempty).symm⟩
  · rintro (hmem | ⟨habsent, hempty⟩)
    · exact ⟨i.name, fieldReads_string_iff.2 (.inl hmem), rfl⟩
    · exact ⟨"", fieldReads_string_iff.2 (.inr ⟨habsent, rfl⟩), hempty⟩

namespace Torrent

/-- All fields but what a torrent says of itself are the same when it says something else. -/
theorem get_with_info (t : Torrent) (info : Option TorrentInfo) :
    ∀ g ∈ fields, g.key ≠ infoField.key → g.get { t with info } = g.get t :=
  List.forall_iff_forall_mem.1
    ⟨fun _ => rfl, fun _ => rfl, fun _ => rfl, fun _ => rfl, fun h => absurd rfl h⟩

/-- A torrent that says of itself what the members `ms` say becomes `t`: it is accepted with null in
    the place of the object, and `t` is what it becomes then, with the name that `ms` give. -/
def Named (torrent : Value → Value) (ms : List (String × Value)) (t : Torrent) : Prop :=
  ∃ (t₀ : Torrent) (i : TorrentInfo), Shapes.torrent.readValue (torrent .null) = .ok t₀ ∧
    i.NamedBy ms ∧ t = { t₀ with info := some i }

theorem named_iff {c : Value → Value} (hc : Slot Torrent "info" c) (hd : (c (.object ms)).Distinct)
    {t : Torrent} : Shapes.torrent.readValue (c (.object ms)) = .ok t ↔ t.Named c ms := by
  have hinfo : ∀ o, infoField.From (.object ms) o ↔ ∃ i : TorrentInfo, i.NamedBy ms ∧ o = some i := by
    intro o
    have hobject : Value.object ms ≠ .null := nofun
    have hmade : infoField.From (.object ms) o ↔ ∃ i, Made (.object ms) i ∧ o = some i :=
      RecordField.from_present_iff hobject
    simp only [hmade, made_torrentInfo_iff (nodup_of_distinct (hc.distinct hd))]
  simp only [Named, readValue_torrent_iff]
  refine (hc.made_put_iff infoField_mem (fun t info => { t with info }) (fun _ _ => rfl)
    get_with_info hd (hc.distinct_put hd .null) fun _ _ => ?_).trans ?_
  · exact ⟨none, none, Json.read_nullable_iff.2 (.inl ⟨rfl, rfl⟩), .none⟩
  · constructor
    · rintro ⟨t₀, o, ht₀, ho, rfl⟩
      obtain ⟨i, hi, rfl⟩ := (hinfo o).1 ho
      exact ⟨t₀, i, ht₀, hi, rfl⟩
    · rintro ⟨t₀, i, ht₀, hi, rfl⟩
      exact ⟨t₀, some i, ht₀, (hinfo _).2 ⟨i, hi, rfl⟩, rfl⟩

end Torrent

/-- An object that says what a torrent is, alone and within a torrent: one in the text of a member, and
    one that is a value with the members `ms`. In a text both readings fail with the same error or have
    the same name, unless no member is a name, even when keys are repeated or values are of the wrong
    kind; and then the reading alone fails for that, and within the torrent the name is empty. With
    other members beside it, in a text or in a value, the object says the same of the torrent. -/
theorem info_alone_and_within {m : MemberText} (hkey : m.key = "info") {ms : List (String × Value)}
    (hms : (Value.object ms).Distinct) :
    (∀ members, SpellsText m.value.toList (.object members) →
      InfoReadings members.keys (Shapes.torrentInfo.readText m.value)
        (Shapes.torrent.readText (Json.objectText [m]))) ∧
      (∀ i, Shapes.torrentInfo.readValue (.object ms) = .ok i ↔ ("name", .string i.name) ∈ ms) ∧
      ∀ (c : Value → Value) (t : Torrent), Slot Torrent "info" c →
        ((c (.object ms)).Distinct →
          (Shapes.torrent.readValue (c (.object ms)) = .ok t ↔ t.Named c ms)) ∧
          ∀ text, TextOf text (c (.object ms)) →
            (Shapes.torrent.readText text = .ok t ↔ t.Named c ms) := by
  refine ⟨fun members htext => infoReadings_text hkey htext,
    fun i => readValue_torrentInfo_iff (nodup_of_distinct hms),
    fun c t hc => ⟨fun hd => Torrent.named_iff hc hd, fun text htext => ?_⟩⟩
  have hkeyed : Shapes.torrent.WellKeyed := Shapes.wellKeyed_rawTorrent
  rw [← Torrent.named_iff hc (Value.ordered_of_parse htext.parse).distinct]
  exact agree_eq_iff.1 (Json.Shape.readText_agrees hkeyed htext.parse htext.distinct) t

/-- A name behind a member that is not known, and a torrent that is written as a list. -/
theorem info_alone_and_within_named :
    InfoReadings ["size", "name"]
        (Shapes.torrentInfo.readText "\x7b\"size\":[],\"name\":\"a\"\x7d")
        (Shapes.torrent.readText "\x7b\"info\":\x7b\"size\":[],\"name\":\"a\"\x7d\x7d") ∧
      Shapes.torrent.readValue
          (.array [.null, .string "c", .null, .null, .object [("name", .string "a")]]) =
        .ok { comment := "c", info := some { name := "a" } } := by
  have hms : (Value.object [("name", .string "a")]).Distinct :=
    .object (by simp) (by simpa using .string "a")
  have hkey : MemberText.key
      ⟨[], "info", [], "\x7b\"size\":[],\"name\":\"a\"\x7d", .nil, .nil⟩ = "info" := rfl
  obtain ⟨htexts, _, htorrents⟩ := info_alone_and_within hkey hms
  have hspell : SpellsText "\x7b\"size\":[],\"name\":\"a\"\x7d".toList
      (.object (.member ⟨"size".toList.map Json.charPiece, .closed⟩ (.list (.stop .closed))
        (.member ⟨"name".toList.map Json.charPiece, .closed⟩
          (.string ⟨"a".toList.map Json.charPiece, .closed⟩) (.stop .closed)))) :=
    Json.spellsText_iff.2 ⟨by cbv, by cbv⟩
  have hslot : Slot Torrent "info" fun v => .array [.null, .string "c", .null, .null, v] :=
    .position [.null, .string "c", .null, .null] [] rfl
  have hdistinct : (Value.array
      [.null, .string "c", .null, .null, .object [("name", .string "a")]]).Distinct := by
    refine .array ?_
    simpa [Value.Distinct.null, Value.Distinct.string] using hms
  have hnull : Shapes.torrent.readValue (.array [.null, .string "c", .null, .null, .null]) =
      .ok { comment := "c" } := rfl
  have hname : TorrentInfo.NamedBy [("name", .string "a")] ⟨"a"⟩ := .inl (by simp)
  exact ⟨htexts _ hspell, ((htorrents _ _ hslot).1 hdistinct).2 ⟨_, _, hnull, hname, rfl⟩⟩

/-- Without a name an object is no error within a torrent, but alone it is. -/
theorem torrentInfo_nameless :
    Shapes.torrentInfo.readText "\x7b\x7d" = .error (.missingField "name") ∧
      Shapes.torrent.readText "\x7b\"info\":\x7b\x7d\x7d" =
        .ok { info := some { name := "" } } := by
  have hparse : Value.parse "\x7b\"info\":\x7b\x7d\x7d" = .ok (.object [("info", .object [])]) := by
    cbv
  have hkeyed : Shapes.torrent.WellKeyed := Shapes.wellKeyed_rawTorrent
  have hagrees := agree_eq_iff.1 (Json.Shape.readText_agrees hkeyed hparse (by cbv))
  have hread : Shapes.torrent.readValue (.object [("info", .object [])]) =
      .ok { info := some { name := "" } } := rfl
  exact ⟨by cbv, (hagrees _).2 hread⟩

end DownloadReport

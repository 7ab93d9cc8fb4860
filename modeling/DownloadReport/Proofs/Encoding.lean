import DownloadReport.Proofs.Agreement
import DownloadReport.Proofs.Payload
import DownloadReport.Proofs.Printing

/-! Raw reports are written so that they can be read back. A shape takes back what was written for it,
    when what comes back of the written value is read as what was written (`Shape.TakesBack`). Records
    are taken back field by field: a field that is left out when it is written is one that may be
    absent when it is read. -/

namespace DownloadReport

open Json

namespace Json

/-- A plain value as which `a` was written and from which the shape reads `a` again, and which is not
    mistaken for the lack of a value. -/
structure Shape.TakesBack {α : Type} (s : Shape α) (room : Nat) (a : α) (v : Value) : Prop where
  plain : v.Plain room
  notNull : v ≠ .null
  read : s.read v.sorted = .ok a

/-- The text of a written value is read as what was written, in whichever style it is set. -/
theorem Shape.TakesBack.readText {α : Type} {s : Shape α} {a : α} {v : Value}
    (h : s.TakesBack deepest a v) (hs : s.WellKeyed) {style : Style} (hstyle : style.IsBlank) :
    s.readText (String.ofList (v.write style 0)) = .ok a := by
  obtain ⟨hparse, hdistinct⟩ := parse_write hstyle h.plain
  exact (agree_eq_iff.1 (Shape.readText_agrees hs hparse hdistinct) a).2 h.read

theorem takesBack_string {room : Nat} (s : String) : Shape.string.TakesBack room s (.string s) :=
  ⟨.string s, nofun, rfl⟩

/-- A list is taken back when its items are. -/
theorem Shape.TakesBack.list {α : Type} {s : Shape α} {room : Nat} {toValue : α → Value} {as : List α}
    (h : ∀ a ∈ as, s.TakesBack room a (toValue a)) :
    (Shape.list s).TakesBack (room + 1) as (.array (as.map toValue)) := by
  refine ⟨.array fun v hv => ?_, nofun, ?_⟩
  · obtain ⟨a, ha, rfl⟩ := List.mem_map.1 hv
    exact (h a ha).plain
  · show readElements (fun v : Value => s.read v) (.ofList (sortedItems (as.map toValue))) = .ok as
    rw [sortedItems_eq_map]
    induction as with
    | nil => rfl
    | cons a as ih =>
      have hread := (h a List.mem_cons_self).read
      have hrest := ih fun b hb => h b (List.mem_cons_of_mem _ hb)
      simp only [List.map_cons, Elements.ofList, readElements, hread, hrest, ok_bind]
      rfl

/-- A value that is not null is read by a shape that admits null as by the shape without it. -/
theorem Shape.TakesBack.nullable {α : Type} {s : Shape α} {room : Nat} {a : α} {v : Value}
    (h : s.TakesBack room a v) : (Shape.nullable s).TakesBack room (some a) v := by
  refine ⟨h.plain, h.notNull, ?_⟩
  have hread : (s.read v.sorted).map some = .ok (some a) := by rw [h.read]; rfl
  have hnull := h.notNull
  cases v with
  | null => exact absurd rfl hnull
  | bool _ | number _ | string _ | array _ | object _ => exact hread

/-- A value that comes back as it was is taken back in its form. -/
theorem takesBack_forms {α : Type} {name : String} {pick : Value → Option α} {room : Nat} {a : α}
    {v : Value} (hplain : v.Plain room) (hnull : v ≠ .null) (hsorted : v.sorted = v)
    (hpick : pick v = some a) : (Shape.forms name pick).TakesBack room a v := by
  have hvalue : liftFault (Viewable.value v) = .ok v := rfl
  refine ⟨hplain, hnull, ?_⟩
  rw [hsorted, Shape.read, hvalue, ok_bind, hpick]

/-! ### Records -/

/-- Members as which the fields of a record were written: in their order, perhaps without some of
    them, and so that the fields can be had from what comes back of them. -/
structure Fields.Written {α : Type} (f : Fields α) (room : Nat) (ms : List (String × Value))
    (a : α) : Prop where
  keys : (ms.map Prod.fst).Sublist f.keys
  plain : ∀ m ∈ ms, m.2.Plain room
  reads : f.WellKeyed → f.Reads (sortedMembers ms) a

section Field

variable {α β : Type} {f : Fields (β → α)} {room : Nat} {ms : List (String × Value)} {make : β → α}

theorem Fields.Written.build (room : Nat) (a : α) : (Fields.build a).Written room [] a :=
  ⟨.slnil, nofun, fun _ => rfl⟩

/-- A field that is written as a plain value, null or not. -/
theorem Fields.Written.member (h : f.Written room ms make) (key : String) {s : Shape β} {b : β}
    {v : Value} (hplain : v.Plain room) (hread : s.read v.sorted = .ok b) (absent : Option β) :
    (Fields.field f key s absent).Written room (ms ++ [(key, v)]) (make b) := by
  refine ⟨?_, ?_, fun hf => ?_⟩
  · rw [List.map_append]
    exact h.keys.append (.refl _)
  · intro m hm
    rcases List.mem_append.1 hm with hm | hm
    · exact h.plain m hm
    · rw [List.mem_singleton.1 hm]
      exact hplain
  · obtain ⟨hf, hkey, _⟩ : f.WellKeyed ∧ key ∉ f.keys ∧ s.WellKeyed := hf
    rw [sortedMembers_append]
    have hmake : f.Reads (sortedMembers ms ++ sortedMembers [(key, v)]) make := by
      refine (h.reads hf).of_agree fun k hk x => ?_
      have hne : k ≠ key := fun heq => hkey (heq ▸ hk)
      simp [sortedMembers, sortedMember, hne]
    have hmem : (key, v.sorted) ∈ sortedMembers ms ++ sortedMembers [(key, v)] := by
      simp [sortedMembers, sortedMember]
    exact hmake.present hmem hread absent

/-- A field that is written. -/
theorem Fields.Written.field (h : f.Written room ms make) (key : String) {s : Shape β} {b : β}
    {v : Value} (hb : s.TakesBack room b v) (absent : Option β) :
    (Fields.field f key s absent).Written room (ms ++ [(key, v)]) (make b) :=
  h.member key hb.plain hb.read absent

/-- A field that is left out, because it has the value that it has when it is absent. -/
theorem Fields.Written.skip (h : f.Written room ms make) (key : String) (s : Shape β) (b : β) :
    (Fields.field f key s (some b)).Written room ms (make b) := by
  refine ⟨h.keys.trans (List.sublist_append_left _ _), h.plain, fun hf => ?_⟩
  obtain ⟨hf, hkey, _⟩ : f.WellKeyed ∧ key ∉ f.keys ∧ s.WellKeyed := hf
  have hmissing : key ∉ (sortedMembers ms).map Prod.fst := by
    rw [keys_sortedMembers]
    intro hmem
    exact hkey (h.keys.subset hmem)
  exact (h.reads hf).missing hmissing s b

end Field

/-- A text is always written. -/
theorem Fields.Written.text {α : Type} {f : Fields (String → α)} {room : Nat}
    {ms : List (String × Value)} {make : String → α} (h : f.Written room ms make) (key s : String) :
    (f.text key).Written room (ms ++ textMember key s) (make s) :=
  h.field key (takesBack_string s) (some "")

/-- What may be left out is written when it is there. -/
theorem Fields.Written.optional {α β : Type} {f : Fields (Option β → α)} {room : Nat}
    {ms : List (String × Value)} {make : Option β → α} (h : f.Written room ms make) (key : String)
    {s : Shape β} {toValue : β → Value} {o : Option β}
    (ho : ∀ b ∈ o, s.TakesBack room b (toValue b)) :
    (f.optional key s).Written room (ms ++ optionalMember key toValue o) (make o) := by
  cases o with
  | none =>
    rw [optionalMember, List.append_nil]
    exact h.skip key (.nullable s) none
  | some b => exact h.field key (ho b rfl).nullable (some none)

/-- A text that may be left out. -/
theorem Fields.Written.optionalText {α : Type} {f : Fields (Option String → α)} {room : Nat}
    {ms : List (String × Value)} {make : Option String → α} (h : f.Written room ms make)
    (key : String) (o : Option String) :
    (f.optional key .string).Written room (ms ++ optionalMember key .string o) (make o) :=
  h.optional key fun s _ => takesBack_string s

/-- A record is taken back when its fields are. -/
theorem Fields.Written.record {α : Type} {f : Fields α} {room : Nat} {ms : List (String × Value)}
    {a : α} (h : f.Written room ms a) (hf : f.WellKeyed) (name : String) :
    (Shape.record name f).TakesBack (room + 1) a (.object ms) := by
  have hkeys : (ms.map Prod.fst).Nodup := (nodup_keys hf).sublist h.keys
  have hperm : (sortMembers (sortedMembers ms)).Perm (sortedMembers ms) :=
    sortMembers_perm (by rw [keys_sortedMembers]; exact hkeys)
  have hnodup : ((sortMembers (sortedMembers ms)).map Prod.fst).Nodup :=
    (keys_sorted_perm hkeys).nodup_iff.2 hkeys
  refine ⟨.object hkeys h.plain, nofun, ?_⟩
  exact (readMembers_eq_ok_iff hf hnodup fun _ _ => rfl).2 ((h.reads hf).perm hperm.symm)

end Json

/-! ### Raw reports -/

theorem sorted_stringsValue (ss : List String) : (stringsValue ss).sorted = stringsValue ss := by
  rw [stringsValue, Value.sorted, sortedItems_eq_map, List.map_map]
  rfl

theorem plain_stringsValue {room : Nat} (ss : List String) : (stringsValue ss).Plain (room + 1) := by
  refine .array fun v hv => ?_
  obtain ⟨s, _, rfl⟩ := List.mem_map.1 hv
  exact .string s

theorem stringItems_map (ss : List String) : stringItems (ss.map .string) = some ss := by
  induction ss with
  | nil => rfl
  | cons s ss ih => rw [List.map_cons, stringItems, ih]; rfl

theorem AnnounceTier.plain_toValue {room : Nat} (t : AnnounceTier) : t.toValue.Plain (room + 1) := by
  cases t with
  | uris us => exact plain_stringsValue us
  | flat u => exact .string u

theorem AnnounceTier.sorted_toValue (t : AnnounceTier) : t.toValue.sorted = t.toValue := by
  cases t with
  | uris us => exact sorted_stringsValue us
  | flat u => rfl

theorem AnnounceTier.ofValue?_toValue (t : AnnounceTier) :
    AnnounceTier.ofValue? t.toValue = some t := by
  cases t with
  | uris us => rw [AnnounceTier.toValue, stringsValue, AnnounceTier.ofValue?, stringItems_map]; rfl
  | flat u => rfl

theorem AnnounceList.sorted_toValue (l : AnnounceList) : l.toValue.sorted = l.toValue := by
  cases l with
  | flat u => rfl
  | tiers ts =>
    rw [AnnounceList.toValue, Value.sorted, sortedItems_eq_map, List.map_map]
    exact congrArg Value.array (List.map_congr_left fun t _ => t.sorted_toValue)

theorem AnnounceList.ofValue?_toValue (l : AnnounceList) :
    AnnounceList.ofValue? l.toValue = some l := by
  cases l with
  | flat u => rfl
  | tiers ts =>
    have htiers : (ts.map AnnounceTier.toValue).mapM AnnounceTier.ofValue? = some ts := by
      induction ts with
      | nil => rfl
      | cons t ts ih => rw [List.map_cons, List.mapM_cons, AnnounceTier.ofValue?_toValue, ih]; rfl
    rw [AnnounceList.toValue, AnnounceList.ofValue?, htiers]
    rfl

namespace Shapes

theorem takesBack_announceList {room : Nat} (l : AnnounceList) :
    announceList.TakesBack (room + 2) l l.toValue := by
  refine takesBack_forms ?_ ?_ l.sorted_toValue (AnnounceList.ofValue?_toValue l)
  · cases l with
    | flat u => exact .string u
    | tiers ts =>
      refine .array fun v hv => ?_
      obtain ⟨t, _, rfl⟩ := List.mem_map.1 hv
      exact t.plain_toValue
  · cases l <;> exact nofun

theorem takesBack_strings {room : Nat} (ss : List String) :
    (Shape.list .string).TakesBack (room + 1) ss (stringsValue ss) :=
  .list fun s _ => takesBack_string s

theorem takesBack_rawUri {room : Nat} (u : RawUri) : rawUri.TakesBack (room + 1) u u.toValue :=
  Fields.Written.build room RawUri.mk
    |>.text "uri" u.uri
    |>.text "status" u.status
    |>.record wellKeyed_rawUri _

theorem takesBack_rawFile {room : Nat} (f : RawFile) : rawFile.TakesBack (room + 3) f f.toValue :=
  Fields.Written.build (room + 2) RawFile.mk
    |>.optionalText "index" f.index
    |>.text "path" f.path
    |>.optionalText "length" f.length
    |>.optionalText "completedLength" f.completedLength
    |>.optionalText "selected" f.selected
    |>.field "uris" (.list fun u _ => takesBack_rawUri u) (some [])
    |>.record wellKeyed_rawFile _

theorem takesBack_rawInfo {room : Nat} (i : RawInfo) : rawInfo.TakesBack (room + 1) i i.toValue :=
  Fields.Written.build room RawInfo.mk
    |>.text "name" i.name
    |>.record wellKeyed_rawInfo _

theorem takesBack_rawTorrent {room : Nat} (t : RawTorrent) :
    rawTorrent.TakesBack (room + 3) t t.toValue :=
  Fields.Written.build (room + 2) RawTorrent.mk
    |>.optional "announceList" (fun l _ => takesBack_announceList l)
    |>.optionalText "comment" t.comment
    |>.optionalText "creationDate" t.creationDate
    |>.optionalText "mode" t.mode
    |>.optional "info" (fun i _ => takesBack_rawInfo i)
    |>.record wellKeyed_rawTorrent _

/-- A raw report is taken back. -/
theorem takesBack_rawDownload {room : Nat} (d : RawDownload) :
    rawDownload.TakesBack (room + 5) d d.toValue :=
  Fields.Written.build (room + 4) RawDownload.mk
    |>.text "gid" d.gid
    |>.text "status" d.status
    |>.optionalText "totalLength" d.totalLength
    |>.optionalText "completedLength" d.completedLength
    |>.optionalText "uploadLength" d.uploadLength
    |>.optionalText "bitfield" d.bitfield
    |>.optionalText "downloadSpeed" d.downloadSpeed
    |>.optionalText "uploadSpeed" d.uploadSpeed
    |>.optionalText "infoHash" d.infoHash
    |>.optionalText "numSeeders" d.numSeeders
    |>.optionalText "seeder" d.seeder
    |>.optionalText "pieceLength" d.pieceLength
    |>.optionalText "numPieces" d.numPieces
    |>.optionalText "connections" d.connections
    |>.optionalText "errorCode" d.errorCode
    |>.optionalText "errorMessage" d.errorMessage
    |>.optional "followedBy" (fun ss _ => takesBack_strings ss)
    |>.optionalText "following" d.following
    |>.optionalText "belongsTo" d.belongsTo
    |>.optionalText "dir" d.dir
    |>.optional "files" (fun _ _ => .list fun f _ => takesBack_rawFile f)
    |>.optional "bittorrent" (fun t _ => takesBack_rawTorrent t)
    |>.optionalText "verifiedLength" d.verifiedLength
    |>.optionalText "verifyIntegrityPending" d.verifyIntegrityPending
    |>.record wellKeyed_rawDownload _

end Shapes

end DownloadReport

import DownloadReport.Proofs.Encoding
import DownloadReport.Proofs.KeyFilter
import DownloadReport.Proofs.OrderedValues
import DownloadReport.Proofs.TypedReply

/-! Trackers in their tiers. The trackers of a torrent may be reported as a list of tiers, as one address,
    or as a list in which addresses stand for tiers; everything else is refused, however deep in the
    value the fault is. What is accepted becomes the tiers of the torrent, with all strings of the value
    in their order, and leaves the rest of the report alone (`tracker_tiers`). -/

namespace DownloadReport

open Json (Value Shape Place)
open Fieldwise

/-! ### Values that hold tiers -/

/-- A value that holds one tier: its addresses, or a single address. -/
inductive HoldsTier : Value → List String → Prop where
  | addresses (us : List String) : HoldsTier (.array (us.map .string)) us
  | address (u : String) : HoldsTier (.string u) [u]

/-- A value that holds tiers: none, a list of them, or a single address. -/
inductive HoldsTiers : Value → List (List String) → Prop where
  | null : HoldsTiers .null []
  | list {items : List Value} {tiers : List (List String)} (h : List.Forall₂ HoldsTier items tiers) :
      HoldsTiers (.array items) tiers
  | address (u : String) : HoldsTiers (.string u) [[u]]

mutual
/-- The strings in a value in their order, keys of members not counted. -/
def Json.Value.strings : Value → List String
  | .string s => [s]
  | .array items => itemStrings items
  | .object members => memberStrings members
  | .null | .bool _ | .number _ => []
def itemStrings : List Value → List String
  | [] => []
  | v :: vs => v.strings ++ itemStrings vs
def memberStrings : List (String × Value) → List String
  | [] => []
  | m :: ms => memberString m ++ memberStrings ms
def memberString : String × Value → List String
  | (_, v) => v.strings
end

theorem itemStrings_map_string (us : List String) : itemStrings (us.map .string) = us := by
  induction us with
  | nil => rfl
  | cons u us ih => rw [List.map_cons, itemStrings, Value.strings, ih, List.singleton_append]

theorem HoldsTier.strings_eq {v : Value} {us : List String} (h : HoldsTier v us) :
    v.strings = us := by
  cases h with
  | addresses us => rw [Value.strings, itemStrings_map_string]
  | address u => rw [Value.strings]

/-- Tiers have the strings of the value that holds them, all of them and in their order. -/
theorem HoldsTiers.flatten_eq {v : Value} {tiers : List (List String)} (h : HoldsTiers v tiers) :
    tiers.flatten = v.strings := by
  cases h with
  | null => rfl
  | address u => rfl
  | list h =>
    rw [Value.strings]
    induction h with
    | nil => rfl
    | cons htier _ ih => rw [List.flatten_cons, ih, itemStrings, htier.strings_eq]

/-- Which values hold tiers. -/
theorem exists_holdsTiers_iff {v : Value} :
    (∃ tiers, HoldsTiers v tiers) ↔
      v = .null ∨ (∃ u, v = .string u) ∨
        ∃ items, v = .array items ∧ ∀ x ∈ items,
          (∃ u, x = .string u) ∨ ∃ us, x = .array us ∧ ∀ y ∈ us, ∃ u, y = .string u := by
  have htier : ∀ {x : Value}, (∃ us, HoldsTier x us) ↔
      (∃ u, x = .string u) ∨ ∃ us, x = .array us ∧ ∀ y ∈ us, ∃ u, y = .string u := by
    intro x
    constructor
    · rintro ⟨_, us | u⟩
      · refine .inr ⟨_, rfl, fun y hy => ?_⟩
        obtain ⟨u, _, rfl⟩ := List.mem_map.1 hy
        exact ⟨u, rfl⟩
      · exact .inl ⟨u, rfl⟩
    · rintro (⟨u, rfl⟩ | ⟨values, rfl, hvalues⟩)
      · exact ⟨_, .address u⟩
      · obtain ⟨us, hus⟩ := exists_forall₂ hvalues
        have hmap : values = us.map .string := by
          rw [← List.forall₂_eq_eq_eq, List.forall₂_map_right_iff]
          exact hus
        exact ⟨us, hmap ▸ .addresses us⟩
  constructor
  · rintro ⟨_, _ | h | u⟩
    · exact .inl rfl
    · refine .inr (.inr ⟨_, rfl, fun x hx => htier.1 ?_⟩)
      obtain ⟨us, _, hus⟩ := exists_mem_right h hx
      exact ⟨us, hus⟩
    · exact .inr (.inl ⟨u, rfl⟩)
  · rintro (rfl | ⟨u, rfl⟩ | ⟨items, rfl, hitems⟩)
    · exact ⟨_, .null⟩
    · exact ⟨_, .address u⟩
    · obtain ⟨tiers, htiers⟩ := exists_forall₂ fun x hx => htier.2 (hitems x hx)
      exact ⟨tiers, .list htiers⟩

/-- An address that is null is none, however deep it stands. -/
example : ¬∃ tiers, HoldsTiers (.array [.string "a", .array [.string "b", .null]]) tiers := by
  rw [exists_holdsTiers_iff]
  simp

/-! ### The forms of tiers -/

theorem stringItems_eq_some_iff {items : List Value} {us : List String} :
    stringItems items = some us ↔ items = us.map .string := by
  constructor
  · intro h
    fun_induction stringItems items generalizing us with
    | case1 => cases h; rfl
    | case2 s rest ih =>
      obtain ⟨ss, hss, rfl⟩ := Option.map_eq_some_iff.1 h
      rw [ih hss, List.map_cons]
    | case3 => exact nomatch h
  · rintro rfl
    exact stringItems_map us

theorem AnnounceTier.holdsTier_iff {v : Value} {us : List String} :
    HoldsTier v us ↔ ∃ t, AnnounceTier.ofValue? v = some t ∧ t.toList = us := by
  constructor
  · rintro (us | u)
    · exact ⟨.uris us, (AnnounceTier.uris us).ofValue?_toValue, rfl⟩
    · exact ⟨.flat u, rfl, rfl⟩
  · rintro ⟨t, ht, rfl⟩
    cases v with
    | string u =>
      cases ht
      exact .address u
    | array items =>
      obtain ⟨us, hus, rfl⟩ := Option.map_eq_some_iff.1 ht
      rw [stringItems_eq_some_iff.1 hus]
      exact .addresses us
    | null | bool _ | number _ | object _ => exact nomatch ht

/-- Forms of a list are picked item by item. -/
theorem mapM_eq_some_iff {α β : Type} {f : α → Option β} {as : List α} {bs : List β} :
    as.mapM f = some bs ↔ List.Forall₂ (fun a b => f a = some b) as bs := by
  induction as generalizing bs with
  | nil => simp [eq_comm]
  | cons a as ih =>
    simp only [List.mapM_cons, List.forall₂_cons_left_iff, Option.bind_eq_bind,
      Option.bind_eq_some_iff, Option.pure_def, Option.some.injEq, ih]
    constructor
    · rintro ⟨b, hb, bs, hbs, rfl⟩
      exact ⟨b, bs, hb, hbs, rfl⟩
    · rintro ⟨b, bs, hb, hbs, rfl⟩
      exact ⟨b, hb, bs, hbs, rfl⟩

theorem AnnounceList.holdsTiers_iff {v : Value} (hnull : v ≠ .null) {tiers : List (List String)} :
    HoldsTiers v tiers ↔ ∃ l, AnnounceList.ofValue? v = some l ∧ l.toTiers = tiers := by
  have hlist : ∀ {items : List Value}, List.Forall₂ HoldsTier items tiers ↔
      ∃ ts, items.mapM AnnounceTier.ofValue? = some ts ∧ ts.map AnnounceTier.toList = tiers := by
    intro items
    have hitem : HoldsTier =
        fun x us => ∃ t, AnnounceTier.ofValue? x = some t ∧ t.toList = us :=
      funext₂ fun _ _ => propext AnnounceTier.holdsTier_iff
    rw [hitem, forall₂_comp_iff]
    refine exists_congr fun ts => and_congr mapM_eq_some_iff.symm ?_
    have hmap : List.Forall₂ Eq (ts.map AnnounceTier.toList) tiers ↔
        ts.map AnnounceTier.toList = tiers := by rw [List.forall₂_eq_eq_eq]
    exact List.forall₂_map_left_iff.symm.trans hmap
  constructor
  · rintro (_ | h | u)
    · exact absurd rfl hnull
    · obtain ⟨ts, hts, rfl⟩ := hlist.1 h
      exact ⟨.tiers ts, by rw [AnnounceList.ofValue?, hts]; rfl, rfl⟩
    · exact ⟨.flat u, rfl, rfl⟩
  · rintro ⟨l, hl, rfl⟩
    cases v with
    | string u =>
      cases hl
      exact .address u
    | array items =>
      obtain ⟨ts, hts, rfl⟩ := Option.map_eq_some_iff.1 hl
      exact .list (hlist.2 ⟨ts, hts, rfl⟩)
    | null | bool _ | number _ | object _ => cases hl

/-! ### Reading tiers -/

/-- What is reported of the trackers of a torrent. -/
abbrev Shapes.reportedTrackers : Shape (Option AnnounceList) := .nullable announceList

/-- The tiers of what was reported. -/
def tiersOf (raw : Option AnnounceList) : List (List String) :=
  (raw.map AnnounceList.toTiers).getD []

/-- A value of trackers is read as the tiers that it holds. -/
theorem holdsTiers_iff {v : Value} {tiers : List (List String)} :
    HoldsTiers v tiers ↔
      ∃ raw, Shapes.reportedTrackers.read v = .ok raw ∧ tiers = tiersOf raw := by
  simp only [Json.read_nullable_iff]
  by_cases hnull : v = .null
  · subst hnull
    constructor
    · rintro ⟨⟩
      exact ⟨none, .inl ⟨rfl, rfl⟩, rfl⟩
    · rintro ⟨raw, ⟨_, rfl⟩ | ⟨h, _⟩, rfl⟩
      · exact .null
      · exact absurd rfl h
  · have hvalue : ∀ w, Json.Viewable.value v = .ok w ↔ v = w := fun w =>
      ⟨Except.ok.inj, congrArg Except.ok⟩
    rw [AnnounceList.holdsTiers_iff hnull]
    simp only [Shapes.announceList, Json.read_forms_iff, hvalue, exists_eq_left', hnull, false_and,
      false_or, ne_eq, not_false_eq_true, true_and]
    constructor
    · rintro ⟨l, hl, rfl⟩
      exact ⟨some l, ⟨l, hl, rfl⟩, rfl⟩
    · rintro ⟨_, ⟨l, hl, rfl⟩, rfl⟩
      exact ⟨l, hl, rfl⟩

/-- In a text trackers are read where a value stands that holds tiers, and as these; it does not matter
    whether an object within the value repeats a key. -/
theorem read_place_iff {p : Place} {raw : Option AnnounceList} :
    Shapes.reportedTrackers.read p = .ok raw ↔
      ∃ v, p.node.value p.room = .ok v ∧ Shapes.reportedTrackers.read v = .ok raw := by
  rw [Json.read_nullable_view_iff]
  simp only [Json.read_nullable_iff, Shapes.announceList, Json.read_forms_iff]
  constructor
  · rintro ⟨w, hw, ⟨rfl, rfl⟩ | ⟨hnull, l, ⟨v, hv, hl⟩, rfl⟩⟩
    · exact ⟨.null, Json.Place.view_null_iff.1 hw, .inl ⟨rfl, rfl⟩⟩
    · refine ⟨v, hv, .inr ⟨?_, l, ⟨v, rfl, hl⟩, rfl⟩⟩
      rintro rfl
      exact hnull (Except.ok.inj (hw.symm.trans (Json.Place.view_null_iff.2 hv)))
  · rintro ⟨v, hv, ⟨rfl, rfl⟩ | ⟨hnull, l, ⟨_, ⟨⟩, hl⟩, rfl⟩⟩
    · exact ⟨.null, Json.Place.view_null_iff.2 hv, .inl ⟨rfl, rfl⟩⟩
    · obtain ⟨w, hw⟩ := Json.Place.exists_view hv
      refine ⟨w, hw, .inr ⟨?_, l, ⟨v, hv, hl⟩, rfl⟩⟩
      rintro rfl
      exact hnull (Except.ok.inj (hv.symm.trans (Json.Place.view_null_iff.1 hw)))

/-! ### The trackers of a torrent -/

namespace Torrent

def announceField : RecordField Torrent :=
  .optional "announceList" Shapes.announceList announceList fun raw ts => ts = tiersOf raw

theorem announceField_mem : announceField ∈ fields := .head _

theorem from_announceField_iff {v : Value} {tiers : List (List String)} :
    announceField.From v tiers ↔ HoldsTiers v tiers :=
  holdsTiers_iff.symm

/-- All fields but the trackers are the same with other trackers. -/
theorem get_with_announceList (t : Torrent) (tiers : List (List String)) :
    ∀ g ∈ fields, g.key ≠ announceField.key → g.get { t with announceList := tiers } = g.get t :=
  List.forall_iff_forall_mem.1
    ⟨fun h => absurd rfl h, fun _ => rfl, fun _ => rfl, fun _ => rfl, fun _ => rfl⟩

variable {c : Value → Value} {v : Value}

/-- A torrent with a value for its trackers is made of what is made of it with null there, and of the
    tiers that the value holds. -/
theorem made_announceList_iff (hc : Slot Torrent "announceList" c) (hd : (c v).Distinct)
    {t : Torrent} :
    Made (c v) t ↔ ∃ (t₀ : Torrent) (tiers : List (List String)),
      Made (c .null) t₀ ∧ HoldsTiers v tiers ∧ t = { t₀ with announceList := tiers } := by
  simp only [← from_announceField_iff]
  exact hc.made_put_iff announceField_mem (fun t tiers => { t with announceList := tiers })
    (fun _ _ => rfl) get_with_announceList hd (hc.distinct_put hd .null)
    fun _ _ => ⟨_, from_announceField_iff.2 .null⟩

/-- A torrent by itself is read as it is made. -/
theorem readValue_torrent_iff {v : Value} {t : Torrent} :
    Shapes.torrent.readValue v = .ok t ↔ Made v t := by
  refine Json.read_refine_iff.trans ?_
  simp only [mapError_eq_ok_iff, ofRaw_eq_ok_iff]
  exact .rfl

/-- A torrent in which the trackers are `v` becomes `t`: it is accepted with null in the place of `v`,
    and `t` is what it becomes then, with the tiers that `v` holds. -/
def Tracked (torrent : Value → Value) (v : Value) (t : Torrent) : Prop :=
  ∃ (t₀ : Torrent) (tiers : List (List String)),
    Shapes.torrent.readValue (torrent .null) = .ok t₀ ∧ HoldsTiers v tiers ∧
      t = { t₀ with announceList := tiers }

theorem tracked_iff (hc : Slot Torrent "announceList" c) (hd : (c v).Distinct) {t : Torrent} :
    Shapes.torrent.readValue (c v) = .ok t ↔ Tracked c v t := by
  simp only [Tracked, readValue_torrent_iff]
  exact made_announceList_iff hc hd

end Torrent

namespace Download

/-- All fields but the torrent are the same with another torrent. -/
theorem get_with_torrent (d : Download) (o : Option Torrent) :
    ∀ g ∈ fields, g.key ≠ torrentField.key → g.get { d with torrent := o } = g.get d :=
  List.forall_iff_forall_mem.1
    ⟨fun _ => rfl, fun _ => rfl, fun _ => rfl, fun _ => rfl, fun _ => rfl, fun _ => rfl, fun _ => rfl,
      fun _ => rfl, fun _ => rfl, fun _ => rfl, fun _ => rfl, fun _ => rfl, fun _ => rfl,
      fun _ => rfl, fun _ => rfl, fun _ => rfl, fun _ => rfl, fun _ => rfl, fun _ => rfl,
      fun _ => rfl, fun _ => rfl, fun h => absurd rfl h, fun _ => rfl, fun _ => rfl⟩

/-- A report in which the trackers of the torrent are `v` becomes `d`: it is accepted with null in the
    place of `v`, and `d` is what it becomes then, with the tiers that `v` holds. -/
def Tracked (report torrent : Value → Value) (v : Value) (d : Download) : Prop :=
  ∃ (d₀ : Download) (t₀ : Torrent) (tiers : List (List String)),
    Shapes.download.readValue (report (torrent .null)) = .ok d₀ ∧ d₀.torrent = some t₀ ∧
      HoldsTiers v tiers ∧ d = { d₀ with torrent := some { t₀ with announceList := tiers } }

variable {r c : Value → Value} {v : Value}

theorem made_trackers_iff (hr : Slot Download "bittorrent" r) (hc : Slot Torrent "announceList" c)
    (hd : (r (c v)).Distinct) {d : Download} : Made (r (c v)) d ↔ Tracked r c v d := by
  have hdc : (c v).Distinct := hr.distinct hd
  have hdnull : (r (c .null)).Distinct := hr.distinct_put hd (hc.distinct_put hdc .null)
  have htorrent : ∀ {w o}, torrentField.From (c w) o ↔ ∃ t, Made (c w) t ∧ o = some t :=
    RecordField.from_present_iff (hc.ne_null _)
  have hfrom : ∀ o, torrentField.From (c v) o → ∃ o₀, torrentField.From (c .null) o₀ := by
    intro o ho
    obtain ⟨t, ht, _⟩ := htorrent.1 ho
    obtain ⟨t₀, _, ht₀, _⟩ := (Torrent.made_announceList_iff hc hdc).1 ht
    exact ⟨_, htorrent.2 ⟨t₀, ht₀, rfl⟩⟩
  simp only [Tracked, readValue_download_iff, madeOf_iff]
  refine (hr.made_put_iff torrentField_mem (fun d o => { d with torrent := o }) (fun _ _ => rfl)
    get_with_torrent hd hdnull hfrom).trans ?_
  constructor
  · rintro ⟨d₀, o, hd₀, ho, rfl⟩
    obtain ⟨t, ht, rfl⟩ := htorrent.1 ho
    obtain ⟨t₀, tiers, ht₀, htiers, rfl⟩ := (Torrent.made_announceList_iff hc hdc).1 ht
    obtain ⟨t₁, ht₁, hget⟩ := htorrent.1 (hr.made_get torrentField_mem hdnull hd₀)
    obtain rfl := ht₀.unique ht₁
    exact ⟨d₀, t₀, tiers, hd₀, hget, htiers, rfl⟩
  · rintro ⟨d₀, t₀, tiers, hd₀, hget₀, htiers, rfl⟩
    obtain ⟨t, ht, hget⟩ := htorrent.1 (hr.made_get torrentField_mem hdnull hd₀)
    obtain rfl : t₀ = t := Option.some.inj (hget₀.symm.trans hget)
    have hmoved := (Torrent.made_announceList_iff hc hdc).2 ⟨t₀, tiers, ht, htiers, rfl⟩
    exact ⟨d₀, _, hd₀, htorrent.2 ⟨_, hmoved, rfl⟩, rfl⟩

end Download

/-- The report in a text repeats no key, even when the text does. -/
theorem distinct_of_report {text : String} {w : Value} (h : (report text).outcome = .ok w) :
    w.Distinct := by
  obtain ⟨v, hparse, rfl | ⟨ms, rfl, hmem, _⟩⟩ := report_eq_ok h
  · exact (Value.ordered_of_parse hparse).distinct
  · cases Value.ordered_of_parse hparse with
    | object _ hms => exact (hms _ hmem).distinct

/-- The trackers of a torrent. They can be reported as null, as a string, or as a list of strings and of
    lists of strings, and as nothing else; the torrent then has no tiers, one tier of one, or one tier
    for each item, and its trackers are all strings of the value in their order. This is so wherever in
    a text the trackers stand; and a torrent or a report, in a text, in a value or in an answer, is
    accepted with such a value just when it is with null there, and has the tiers in addition. Tiers
    that are written come back, empty ones as well. -/
theorem tracker_tiers :
    (∀ v : Value,
      ((∃ tiers, HoldsTiers v tiers) ↔
        v = .null ∨ (∃ u, v = .string u) ∨
          ∃ items, v = .array items ∧ ∀ x ∈ items,
            (∃ u, x = .string u) ∨ ∃ us, x = .array us ∧ ∀ y ∈ us, ∃ u, y = .string u) ∧
        ∀ t : Torrent, HoldsTiers v t.announceList → t.trackers = v.strings) ∧
      (∀ (p : Place) (tiers : List (List String)),
        (∃ raw, Shapes.reportedTrackers.read p = .ok raw ∧ tiers = tiersOf raw) ↔
          ∃ v, p.node.value p.room = .ok v ∧ HoldsTiers v tiers) ∧
      (∀ (c : Value → Value) (v : Value) (t : Torrent), Slot Torrent "announceList" c →
        ((c v).Distinct → (Shapes.torrent.readValue (c v) = .ok t ↔ t.Tracked c v)) ∧
          ∀ text, TextOf text (c v) → (Shapes.torrent.readText text = .ok t ↔ t.Tracked c v)) ∧
      (∀ (r c : Value → Value) (v : Value) (d : Download) (text : String),
        Slot Download "bittorrent" r → Slot Torrent "announceList" c →
        (TextOf text (r (c v)) → ((Download.ofJson text).outcome = .ok d ↔ d.Tracked r c v)) ∧
          ((report text).outcome = .ok (r (c v)) →
            ((decode text).outcome = .ok d ↔ d.Tracked r c v))) ∧
      ∀ ts : List (List String),
        (AnnounceList.ofTiers ts).toTiers = ts ∧ HoldsTiers (AnnounceList.ofTiers ts).toValue ts ∧
          Shapes.announceList.readValue (AnnounceList.ofTiers ts).toValue = .ok (.ofTiers ts) ∧
          Shapes.announceList.readText (AnnounceList.ofTiers ts).toValue.compact =
            .ok (.ofTiers ts) := by
  refine ⟨fun v => ⟨exists_holdsTiers_iff, fun t h => h.flatten_eq⟩, fun p tiers => ?_,
    fun c v t hc => ⟨fun hd => Torrent.tracked_iff hc hd, fun text htext => ?_⟩,
    fun r c v d text hr hc => ⟨fun htext => ?_, fun hreport => ?_⟩, fun ts => ?_⟩
  · simp only [read_place_iff, holdsTiers_iff]
    constructor
    · rintro ⟨raw, ⟨v, hv, hraw⟩, htiers⟩
      exact ⟨v, hv, raw, hraw, htiers⟩
    · rintro ⟨v, hv, raw, hraw, htiers⟩
      exact ⟨raw, ⟨v, hv, hraw⟩, htiers⟩
  · have hkeyed : Shapes.torrent.WellKeyed := Shapes.wellKeyed_rawTorrent
    rw [← Torrent.tracked_iff hc (Value.ordered_of_parse htext.parse).distinct]
    exact agree_eq_iff.1 (Json.Shape.readText_agrees hkeyed htext.parse htext.distinct) t
  · rw [outcome_ofJson_eq_ok_iff htext]
    exact Download.made_trackers_iff hr hc (Value.ordered_of_parse htext.parse).distinct
  · rw [decode_eq_bind, Traced.outcome_bind, hreport, ok_bind, decodeValue_eq_ok_iff, madeOf_iff]
    exact Download.made_trackers_iff hr hc (distinct_of_report hreport)
  · have hback : Shapes.announceList.TakesBack Json.deepest (AnnounceList.ofTiers ts)
        (AnnounceList.ofTiers ts).toValue := Shapes.takesBack_announceList _
    have hread := hback.read
    rw [AnnounceList.sorted_toValue] at hread
    refine ⟨AnnounceList.toTiers_ofTiers ts, ?_, hread,
      hback.readText trivial Json.Style.isBlank_compact⟩
    exact (AnnounceList.holdsTiers_iff hback.notNull).2
      ⟨_, AnnounceList.ofValue?_toValue _, AnnounceList.toTiers_ofTiers ts⟩

/-- A list with an address for a tier and with an empty tier, in a report. -/
theorem tracker_tiers_mixed :
    (Download.ofJson
      "\x7b\"bittorrent\": \x7b\"announceList\": [\"a\", [\"b\", \"c\"], []]\x7d\x7d").outcome =
        .ok { torrent := some { announceList := [["a"], ["b", "c"], []] } } ∧
      (Torrent.trackers { announceList := [["a"], ["b", "c"], []] }) = ["a", "b", "c"] := by
  obtain ⟨hvalues, _, _, hreports, _⟩ := tracker_tiers
  have htiers : HoldsTiers
      (.array [.string "a", .array [.string "b", .string "c"], .array []])
      [["a"], ["b", "c"], []] :=
    .list (.cons (.address "a") (.cons (.addresses ["b", "c"]) (.cons (.addresses []) .nil)))
  have hreport : Slot Download "bittorrent" fun v => .object [("bittorrent", v)] := .member [] []
  have htorrent : Slot Torrent "announceList" fun v => .object [("announceList", v)] := .member [] []
  have htext : TextOf
      "\x7b\"bittorrent\": \x7b\"announceList\": [\"a\", [\"b\", \"c\"], []]\x7d\x7d"
      (.object [("bittorrent", .object [("announceList",
        .array [.string "a", .array [.string "b", .string "c"], .array []])])]) :=
    ⟨by cbv, by cbv⟩
  have hnull : Shapes.download.readValue
      (.object [("bittorrent", .object [("announceList", .null)])]) = .ok { torrent := some {} } :=
    rfl
  have htrackers := (hvalues _).2 { announceList := [["a"], ["b", "c"], []] : Torrent } htiers
  exact ⟨((hreports _ _ _ _ _ hreport htorrent).1 htext).2 ⟨_, _, _, hnull, rfl, htiers, rfl⟩,
    htrackers.trans rfl⟩

end DownloadReport

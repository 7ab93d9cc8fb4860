import DownloadReport.Proofs.KeyFilter
import DownloadReport.Proofs.TypedReply
import DownloadReport.Proofs.WellFormed

/-! What a report is made of. Records are read from objects, and from lists too, whose items are the
    fields in their order. So a download is decoded from an object or from a short list that begins with
    a text, and from nothing else (`report_containers`). An empty list is short enough: the answer to a
    listing of which nothing came is a download without anything for who asks for one download
    (`empty_listing_decoded`). -/

namespace DownloadReport

open Json (Value Shape Place Node Items)
open Fieldwise

namespace Json

/-- The nodes of a list. -/
def Items.nodes : Items → List Node
  | .stop _ => []
  | .item n rest => n :: rest.nodes

/-- Nodes with what is seen of them: the kind of value that stands there. -/
inductive Node.Seen : Node → View Place → Prop where
  | null : Seen .null .null
  | bool (b : Bool) : Seen (.bool b) (.bool b)
  | number (t : NumberText) (x : Number) : Seen (.number t) (.number x)
  | string (s : StringText) (text : String) : Seen (.string s) (.string text)
  | list (items : Items) (elements : Elements Place) : Seen (.list items) (.list elements)
  | object (members : Members) (entries : Entries Place) : Seen (.object members) (.object entries)

theorem Node.seen_of_view {n : Node} {room : Nat} {w : View Place}
    (h : Viewable.view (⟨n, room⟩ : Place) = .ok w) : n.Seen w := by
  cases n with
  | null =>
    cases h
    exact .null
  | bool b =>
    cases h
    exact .bool b
  | number t =>
    obtain ⟨x, _, hw⟩ := map_eq_ok_iff.1 h
    cases hw
    exact .number t x
  | string s =>
    obtain ⟨text, _, hw⟩ := map_eq_ok_iff.1 h
    cases hw
    exact .string s text
  | list items =>
    cases room <;> cases h
    · exact .list items _
    · exact .list items _
  | object members =>
    cases room <;> cases h
    · exact .object members _
    · exact .object members _
  | missing | stray | brokenWord _ => cases h

/-- The items of a well-formed list are seen up to its end. -/
theorem Items.elements_eq : ∀ {items : Items} (room : Nat), items.skim = .ok () →
    items.elements room = .ofList (items.nodes.map fun n => ⟨n, room⟩)
  | .stop s, _, h => by
    obtain rfl := ListStop.skim_stop.1 h
    rfl
  | .item n rest, room, h => by
    rw [Items.elements, Items.elements_eq room (Items.skim_item.1 h).2]
    rfl

end Json

/-! ### Records -/

section Records

variable {σ : Type} [Json.Viewable σ] {x : σ}

/-- A record is read where a list or an object is seen. -/
theorem Json.view_of_read_record {α : Type} {name : String} {f : Json.Fields α} {a : α}
    (h : (Shape.record name f).read x = .ok a) :
    (∃ elements, Json.Viewable.view x = .ok (.list elements)) ∨
      ∃ entries, Json.Viewable.view x = .ok (.object entries) := by
  simp only [Shape.read, bind_eq_ok_iff, Json.liftFault_eq_ok_iff] at h
  obtain ⟨w, hw, h⟩ := h
  cases w with
  | list elements => exact .inl ⟨elements, hw⟩
  | object entries => exact .inr ⟨entries, hw⟩
  | null | bool _ | number _ | string _ => cases h

/-- Where a list is seen, a report is read of the items as of its fields; so there are no more than 24,
    and the first of them is the text of the id. -/
theorem Shapes.positions_of_read {raw : RawDownload} {xs : List σ}
    (hview : Json.Viewable.view x = .ok (.list (.ofList xs))) (h : rawDownload.read x = .ok raw) :
    xs.length ≤ 24 ∧ ∀ y ∈ xs.head?, ∃ gid, Json.Viewable.view y = .ok (.string gid) := by
  obtain ⟨hlength, hreads⟩ := (Json.read_record_view_iff wellKeyed_rawDownload hview).1 h
  refine ⟨hlength, fun y hy => ?_⟩
  obtain ⟨rest, rfl⟩ := List.head?_eq_some_iff.1 hy
  have hfields : ∃ raw, Json.Fields.Reads _ (("gid", y) :: (keys Download).tail.zip rest) raw ∧ True :=
    ⟨raw, hreads, trivial⟩
  simp only [Json.Fields.text, Json.Fields.optional, Json.exists_reads_field_iff,
    Json.exists_reads_build_iff] at hfields
  obtain ⟨gid, ⟨z, hz, hread⟩ | ⟨hmissing, _⟩, _⟩ := hfields
  · rcases List.mem_cons.1 hz with hz | hz
    · cases hz
      exact ⟨gid, Json.read_string_iff.1 hread⟩
    · exact absurd (Json.key_mem_of_zip hz) (List.nodup_cons.1 (nodup_keys (α := Download))).1
  · exact absurd List.mem_cons_self hmissing

end Records

/-! ### Containers of reports -/

/-- Nodes from which a report can be read: an object, or a list of its fields in their order. -/
inductive Json.Node.HoldsReport : Node → Prop where
  | object (members : Json.Members) : HoldsReport (.object members)
  | list {items : Items} (hlength : items.nodes.length ≤ 24)
      (hfirst : ∀ n ∈ items.nodes.head?, ∃ s, n = .string s) : HoldsReport (.list items)

/-- Values from which a report can be read. -/
inductive Json.Value.HoldsReport : Value → Prop where
  | object (members : List (String × Value)) : HoldsReport (.object members)
  | array {items : List Value} (hlength : items.length ≤ 24)
      (hfirst : ∀ v ∈ items.head?, ∃ s, v = .string s) : HoldsReport (.array items)

theorem Json.Node.holdsReport_of_read {n : Node} {room : Nat} {raw : RawDownload}
    (h : Shapes.rawDownload.read (⟨n, room + 1⟩ : Place) = .ok raw) : n.HoldsReport := by
  rcases Json.view_of_read_record h with ⟨_, hw⟩ | ⟨_, hw⟩
  · cases Json.Node.seen_of_view hw with
    | list items _ =>
      have hview : Json.Viewable.view (⟨.list items, room + 1⟩ : Place) =
          .ok (.list (.ofList (items.nodes.map fun n => ⟨n, room⟩))) := by
        rw [← Items.elements_eq room (Shapes.rawDownload.skim_of_read h)]
        rfl
      obtain ⟨hlength, hfirst⟩ := Shapes.positions_of_read hview h
      rw [List.length_map] at hlength
      rw [List.head?_map] at hfirst
      refine .list hlength fun n hn => ?_
      obtain ⟨_, hgid⟩ := hfirst ⟨n, room⟩ (Option.mem_map_of_mem _ hn)
      cases Json.Node.seen_of_view hgid with
      | string s _ => exact ⟨s, rfl⟩
  · cases Json.Node.seen_of_view hw with
    | object members _ => exact .object members

theorem Json.Value.holdsReport_of_read {v : Value} {raw : RawDownload}
    (h : Shapes.rawDownload.readValue v = .ok raw) : v.HoldsReport := by
  cases v with
  | object members => exact .object members
  | array items =>
    have hview : Json.Viewable.view (Value.array items) = .ok (.list (.ofList items)) := rfl
    obtain ⟨hlength, hfirst⟩ := Shapes.positions_of_read hview h
    refine .array hlength fun v hv => ?_
    obtain ⟨gid, hgid⟩ := hfirst v hv
    cases v with
    | string s => exact ⟨s, rfl⟩
    | null | bool _ | number _ | array _ | object _ => exact nomatch hgid
  | null | bool _ | number _ | string _ =>
    rcases Json.view_of_read_record h with ⟨_, hw⟩ | ⟨_, hw⟩ <;> exact nomatch hw

/-- Whatever is decoded is made of something that a report can be read from. -/
theorem Json.Value.holdsReport_or_error (v : Value) :
    v.HoldsReport ∨ ∃ reason, (decodeValue v).outcome = .error (.json reason) := by
  rw [outcome_decodeValue]
  cases hread : Shapes.rawDownload.readValue v with
  | ok raw => exact .inl (Json.Value.holdsReport_of_read hread)
  | error e => exact .inr ⟨e.message, rfl⟩

/-- A list is decoded as the object with its items under the keys of the fields. -/
theorem decodeValue_array_iff {items : List Value} {d : Download} :
    (decodeValue (.array items)).outcome = .ok d ↔
      items.length ≤ 24 ∧
        (decodeValue (.object ((keys Download).zip items))).outcome = .ok d := by
  rw [decodeValue_eq_ok_iff, decodeValue_eq_ok_iff, madeOf_iff, madeOf_iff, made_array_iff,
    made_object_iff (Json.nodup_zip_keys nodup_keys)]
  exact .rfl

/-- A download is decoded from an object, or from a list of at most 24 items that begins with the text
    of its id; from anything else comes a fault of the shape. So it is for a text that is read at once
    and for the report that is found in a text, whether it stands alone or in an answer. A list, an
    empty one for instance, is decoded as the object with its items under the keys of the fields. -/
theorem report_containers (text : String) :
    ((∃ n, Json.SpellsText text.toList n ∧ n.HoldsReport) ∨
        ∃ reason, (Download.ofJson text).outcome = .error (.json reason)) ∧
      (∀ v, (report text).outcome = .ok v →
        v.HoldsReport ∨ ∃ reason, (decode text).outcome = .error (.json reason)) ∧
      (∀ items, TextOf text (.array items) → ∀ d, (Download.ofJson text).outcome = .ok d ↔
        items.length ≤ 24 ∧
          (decodeValue (.object ((keys Download).zip items))).outcome = .ok d) ∧
      (∀ items, (report text).outcome = .ok (.array items) → ∀ d, (decode text).outcome = .ok d ↔
        items.length ≤ 24 ∧
          (decodeValue (.object ((keys Download).zip items))).outcome = .ok d) := by
  have hdecode : ∀ {v}, (report text).outcome = .ok v →
      (decode text).outcome = (decodeValue v).outcome := by
    intro v hv
    rw [decode_eq_bind, Traced.outcome_bind, hv, ok_bind]
  refine ⟨?_, fun v hv => ?_, fun items ht d => ?_, fun items hitems d => ?_⟩
  · rw [outcome_ofJson]
    cases hread : Shapes.rawDownload.readText text with
    | error e => exact .inr ⟨e.message, rfl⟩
    | ok raw =>
      have hroot : Shapes.rawDownload.read (⟨(Json.Outline.of text).root, 126 + 1⟩ : Place) = .ok raw :=
        (Json.Shape.readText_eq_ok_iff.1 hread).1
      exact .inl ⟨_, Json.Shape.spellsText_of_readText hread, Json.Node.holdsReport_of_read hroot⟩
  · rw [hdecode hv]
    exact v.holdsReport_or_error
  · rw [outcome_ofJson_eq_ok_iff ht, ← madeOf_iff, ← decodeValue_eq_ok_iff, decodeValue_array_iff]
  · rw [hdecode hitems, decodeValue_array_iff]

/-- A list of downloads is no download, and a list of a text is the download with that text as its id. -/
theorem report_containers_lists :
    (∃ reason, (decode "[\x7b\"gid\": \"g\"\x7d]").outcome = .error (.json reason)) ∧
      (Download.ofJson "[\"g\"]").outcome = .ok { gid := "g" } := by
  constructor
  · have hreport : (report "[\x7b\"gid\": \"g\"\x7d]").outcome =
        .ok (.array [.object [("gid", .string "g")]]) := by
      rw [report_eq (by cbv)]
      rfl
    refine ((report_containers _).2.1 _ hreport).resolve_left fun h => ?_
    cases h with
    | array _ hfirst =>
      obtain ⟨s, hs⟩ := hfirst _ rfl
      cases hs
  · have ht : TextOf "[\"g\"]" (.array [.string "g"]) := ⟨by cbv, by cbv⟩
    exact ((report_containers _).2.2.1 _ ht _).2 ⟨by decide, rfl⟩

/-- The answer to a listing of which nothing came is taken for a download without anything, and so is
    an empty list that stands alone: neither is an object. -/
theorem empty_listing_decoded :
    (report "\x7b\"jsonrpc\": \"2.0\", \"id\": 1, \"result\": []\x7d").outcome = .ok (.array []) ∧
      (decode "\x7b\"jsonrpc\": \"2.0\", \"id\": 1, \"result\": []\x7d").outcome = .ok {} ∧
      Value.parse "[]" = .ok (.array []) ∧ (Download.ofJson "[]").outcome = .ok {} := by
  have hreport : (report "\x7b\"jsonrpc\": \"2.0\", \"id\": 1, \"result\": []\x7d").outcome =
      .ok (.array []) := by
    rw [report_eq (Value.parse_of_outline (Json.Outline.of_eq (by cbv) (by rfl)) (by rfl))]
    rfl
  have hread : Shapes.rawDownload.readText "[]" = .ok {} := by cbv
  refine ⟨hreport, ?_, by cbv, ?_⟩
  · rw [decode_eq_bind, Traced.outcome_bind, hreport]
    rfl
  · rw [outcome_ofJson, hread]
    rfl

end DownloadReport

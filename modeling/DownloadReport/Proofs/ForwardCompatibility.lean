import DownloadReport.Proofs.Listing
import DownloadReport.Proofs.MemberOrder
import DownloadReport.Proofs.UnknownMembers

/-! Reports from a server that tells more than is known here. Members may have been added to a report
    and to its parts, with keys that these have no field for. The reader that walks through the text
    does not notice; nor does the other, as long as the text still has a value and no added key makes
    an answer of it (`decoding_passes_over_unknown`). -/

namespace DownloadReport

open Json (Value Shape Fields Node Members StringText SpellsText spellsText_iff)

namespace Json

/-- Texts of documents of which the second has members that were added. -/
def Shape.ExtendsText {α : Type} (s : Shape α) (text text' : String) : Prop :=
  ∃ n n', SpellsText text.toList n ∧ SpellsText text'.toList n' ∧ s.Extends n n'

section Text

variable {α : Type} {s : Shape α} {text text' : String} {v v' : Value}

theorem Shape.ExtendsText.readText (h : s.ExtendsText text text') (hs : s.WellKeyed) :
    s.readText text' = s.readText text := by
  obtain ⟨n, n', hn, hn', hextends⟩ := h
  obtain ⟨houtline, hskim⟩ := spellsText_iff.1 hn
  obtain ⟨houtline', hskim'⟩ := spellsText_iff.1 hn'
  have hread : s.read (⟨n, deepest⟩ : Place) = s.read (⟨n', deepest⟩ : Place) :=
    Shape.read_extended stands_place s hs hextends ⟨rfl, hskim⟩ ⟨rfl, hskim'⟩
  simp only [Shape.readText, houtline, houtline', hread, Outline.checkEnd]

/-- The values of both texts, if both have one, are of documents of which one extends the other. -/
theorem Shape.ExtendsText.values (h : s.ExtendsText text text') (hparse : Value.parse text = .ok v)
    (hparse' : Value.parse text' = .ok v') :
    ∃ n n', s.Extends n n' ∧ n.value deepest = .ok v ∧ n'.value deepest = .ok v' := by
  obtain ⟨n, n', hn, hn', hextends⟩ := h
  rw [Value.parse_eq_ok_iff, (spellsText_iff.1 hn).1] at hparse
  rw [Value.parse_eq_ok_iff, (spellsText_iff.1 hn').1] at hparse'
  exact ⟨n, n', hextends, hparse.1, hparse'.1⟩

end Text

/-- An extended object has the keys of the object, and no more of those that the record has fields
    for. -/
theorem object_of_extended {α : Type} {name : String} {f : Fields α} {n n' : Node} {room : Nat}
    {ms : List (String × Value)} {v' : Value} (h : (Shape.record name f).Extends n n')
    (hv : n.value room = .ok (.object ms)) (hv' : n'.value room = .ok v') :
    ∃ ms', v' = .object ms' ∧ (∀ key ∈ ms.map Prod.fst, key ∈ ms'.map Prod.fst) ∧
      ∀ key ∈ f.keys, key ∈ ms'.map Prod.fst → key ∈ ms.map Prod.fst := by
  rcases h with rfl | ⟨members, members', rfl, rfl, hextended⟩ | ⟨items, _, rfl, _, _⟩
  · cases hv.symm.trans hv'
    exact ⟨ms, rfl, fun _ h => h, fun _ _ h => h⟩
  · obtain ⟨r, vs, rfl, hvs, hms⟩ := Node.value_object.1 hv
    obtain ⟨_, vs', ⟨⟩, hvs', rfl⟩ := Node.value_object.1 hv'
    cases hms
    refine ⟨_, rfl, fun key => ?_, fun key hknown => ?_⟩
    · rw [mem_keys_sortMembers, mem_keys_sortMembers, Members.keys_of_values hvs,
        Members.keys_of_values hvs']
      exact hextended.mem_keys.1
    · rw [mem_keys_sortMembers, mem_keys_sortMembers, Members.keys_of_values hvs,
        Members.keys_of_values hvs']
      exact hextended.mem_keys.2 hknown
  · obtain ⟨_, _, _, _, hms⟩ := Node.value_list.1 hv
    exact nomatch hms

end Json

/-- What is an answer stays one when members are added, but for an id of a download. -/
theorem isReply_of_added {ms ms' : List (String × Value)}
    (hkeys : ∀ key ∈ ms.map Prod.fst, key ∈ ms'.map Prod.fst)
    (hgid : "gid" ∈ ms'.map Prod.fst → "gid" ∈ ms.map Prod.fst)
    (h : isReply (.object ms) = true) : isReply (.object ms') = true := by
  rw [isReply_object_iff] at h ⊢
  rcases h with hversion | ⟨hnone, hresult | herror⟩
  · exact .inl (hkeys _ hversion)
  · exact .inr ⟨fun hmem => hnone (hgid hmem), .inl (hkeys _ hresult)⟩
  · exact .inr ⟨fun hmem => hnone (hgid hmem), .inr (hkeys _ herror)⟩

/-- A report is a record, and its id is one of the fields. -/
theorem Shapes.rawDownload_eq_record :
    ∃ name f, Shapes.rawDownload = .record name f ∧ "gid" ∈ f.keys :=
  ⟨_, _, rfl, by simp [Fields.keys, Fields.text, Fields.optional]⟩

/-- What is decoded of an object is decided by the raw report that is read of it. -/
theorem decodeValue_congr {v v' : Value}
    (h : Shapes.rawDownload.readValue v' = Shapes.rawDownload.readValue v) :
    decodeValue v' = decodeValue v := by
  rw [decodeValue, decodeValue, readAs, readAs, h]

theorem decodeValues_congr {ms ms' : List (String × Value)}
    (h : Shapes.rawDownload.readValue (.object ms') = Shapes.rawDownload.readValue (.object ms)) :
    decodeValues (.object ms') = decodeValues (.object ms) := by
  have hsingle : ∀ ms items, Value.object ms ≠ .array items := by simp
  rw [decodeValues, decodeValues, rawDownloads_single (hsingle ms'), rawDownloads_single (hsingle ms),
    readAs, readAs, h]

/-- Members that are not known do not matter, wherever they are added to a report or to a part of it,
    at whatever place and with whatever value. -/
theorem decoding_passes_over_unknown {text text' : String} {ms : List (String × Value)}
    (h : Shapes.rawDownload.ExtendsText text text') (hparse : Value.parse text = .ok (.object ms)) :
    Download.ofJson text' = Download.ofJson text ∧
      ∀ v', Value.parse text' = .ok v' → isReply v' = false →
        decode text' = decode text ∧ decodeAll text' = decodeAll text := by
  refine ⟨?_, fun v' hparse' hreply' => ?_⟩
  · rw [Download.ofJson, Download.ofJson, h.readText Shapes.wellKeyed_rawDownload]
  · obtain ⟨n, n', hextends, hv, hv'⟩ := h.values hparse hparse'
    have hread : Shapes.rawDownload.readValue v' = Shapes.rawDownload.readValue (.object ms) :=
      (Shape.read_extended Json.stands_value _ Shapes.wellKeyed_rawDownload hextends hv hv').symm
    obtain ⟨name, f, hrecord, hgid⟩ := Shapes.rawDownload_eq_record
    rw [hrecord] at hextends
    obtain ⟨ms', rfl, hkeys, hknown⟩ := Json.object_of_extended hextends hv hv'
    have hreply : isReply (.object ms) = false := by
      by_contra hanswer
      rw [Bool.not_eq_false] at hanswer
      have hadded := isReply_of_added hkeys (hknown "gid" hgid) hanswer
      rw [hreply'] at hadded
      exact Bool.false_ne_true hadded
    rw [decode_of_not_reply hparse' hreply', decode_of_not_reply hparse hreply,
      decodeAll_of_not_reply hparse' hreply', decodeAll_of_not_reply hparse hreply]
    exact ⟨decodeValue_congr hread, decodeValues_congr hread⟩

/-- A report to which a member was added, and another to the file in it. -/
theorem decoding_passes_over_unknown_file :
    Download.ofJson
        "\x7b\"gid\":\"g\",\"new\":[\x7b\x7d],\"files\":[\x7b\"size\":-1,\"path\":\"p\"\x7d]\x7d" =
        ⟨[], .ok { gid := "g", files := [{ path := "p" }] }⟩ ∧
      decode
        "\x7b\"gid\":\"g\",\"new\":[\x7b\x7d],\"files\":[\x7b\"size\":-1,\"path\":\"p\"\x7d]\x7d" =
        ⟨[.decoded "g" .unreported], .ok { gid := "g", files := [{ path := "p" }] }⟩ := by
  have hextends : Shapes.rawDownload.ExtendsText
      "\x7b\"gid\":\"g\",\"files\":[\x7b\"path\":\"p\"\x7d]\x7d"
      "\x7b\"gid\":\"g\",\"new\":[\x7b\x7d],\"files\":[\x7b\"size\":-1,\"path\":\"p\"\x7d]\x7d" :=
    ⟨.object (.member (.plain "gid") (.string (.plain "g")) (.member (.plain "files")
        (.list (.item (.object (.member (.plain "path") (.string (.plain "p")) (.stop .closed)))
          (.stop .closed))) (.stop .closed))),
      .object (.member (.plain "gid") (.string (.plain "g")) (.member (.plain "new")
        (.list (.item (.object (.stop .closed)) (.stop .closed))) (.member (.plain "files")
          (.list (.item (.object (.member (.plain "size")
            (.number ⟨true, ['1'], [], none, none⟩)
            (.member (.plain "path") (.string (.plain "p")) (.stop .closed)))) (.stop .closed)))
          (.stop .closed)))),
      spellsText_iff.2 ⟨by cbv, by cbv⟩,
      spellsText_iff.2 ⟨Json.Outline.of_eq (by cbv) (by rfl), by rfl⟩, by
      refine .inr (.inl ⟨_, _, rfl, rfl, .kept (by rfl) (.refl _ _ _)
        (.added _ (by rfl) (by decide) (.kept (by rfl) ?_ (.stop _)))⟩)
      refine .earlier (by decide) (.earlier (by decide) (.earlier (by decide) (.own ?_)))
      refine .inr ⟨_, _, rfl, rfl, .item ?_ (.stop _ _)⟩
      exact .inr (.inl ⟨_, _, rfl, rfl, .added _ (by rfl) (by decide)
        (.kept (by rfl) (.refl _ _ _) (.stop _))⟩)⟩
  have hparse : Value.parse "\x7b\"gid\":\"g\",\"files\":[\x7b\"path\":\"p\"\x7d]\x7d" =
      .ok (.object [("files", .array [.object [("path", .string "p")]]), ("gid", .string "g")]) := by
    cbv
  obtain ⟨hwalk, hvalue⟩ := decoding_passes_over_unknown hextends hparse
  obtain ⟨hdecode, _⟩ := hvalue (.object [("files", .array [.object [("path", .string "p"),
    ("size", .number (.integer (-1) (by decide)))]]), ("gid", .string "g"),
    ("new", .array [.object []])])
    (Value.parse_of_outline (Json.Outline.of_eq (by cbv) (by rfl)) (by rfl)) rfl
  refine ⟨hwalk.trans (by cbv), hdecode.trans ?_⟩
  rw [decode_of_not_reply hparse rfl]
  rfl

end DownloadReport

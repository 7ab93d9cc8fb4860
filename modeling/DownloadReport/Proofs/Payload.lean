import DownloadReport.Payload
import DownloadReport.Proofs.Record
import DownloadReport.Typed

/-! Reports with and without an answer around them. Decoding first finds the value of the text, then
    the report in it, and goes on with the report alone: a text that is a report, and an answer with
    that report in it, go on alike. -/

namespace DownloadReport

open Json (Value)

/-- An object has a member just when its key is among the keys of its members. -/
theorem isSome_findMember {key : String} {ms : List (String × Value)} :
    (Json.findMember key ms).isSome ↔ key ∈ ms.map Prod.fst := by
  simp [Json.findMember, List.find?_isSome, List.mem_map]

/-- When no key comes twice, the member of a key is the one that is there. -/
theorem findMember_eq_some_iff {key : String} {v : Value} {ms : List (String × Value)}
    (hkeys : (ms.map Prod.fst).Nodup) : Json.findMember key ms = some v ↔ (key, v) ∈ ms := by
  induction ms with
  | nil => simp [Json.findMember]
  | cons m ms ih =>
    obtain ⟨k, w⟩ := m
    obtain ⟨hk, hms⟩ := List.nodup_cons.1 hkeys
    by_cases hkey : k = key
    · subst hkey
      have hother : (k, v) ∉ ms := fun hmem => hk (List.mem_map.2 ⟨_, hmem, rfl⟩)
      simp [Json.findMember, hother, eq_comm]
    · have hfind : Json.findMember key ((k, w) :: ms) = Json.findMember key ms := by
        simp [Json.findMember, hkey]
      rw [hfind, ih hms]
      simp [Ne.symm hkey]

/-- Whether an object is an answer depends on its keys only. -/
theorem isReply_object_iff {ms : List (String × Value)} :
    isReply (.object ms) = true ↔
      "jsonrpc" ∈ ms.map Prod.fst ∨ ("gid" ∉ ms.map Prod.fst ∧
        ("result" ∈ ms.map Prod.fst ∨ "error" ∈ ms.map Prod.fst)) := by
  simp only [isReply, Value.member?, Bool.or_eq_true, Bool.and_eq_true, isSome_findMember,
    Option.isNone_iff_eq_none, ← Option.not_isSome_iff_eq_none]

/-- Decodes the value of a report. -/
def decodeValue (v : Value) : Decoding Download := do
  let raw ← .lift (readAs Shapes.rawDownload v)
  let d ← Download.ofRaw raw
  .note [.decoded d.gid d.state]
  return d

/-- Decodes the value of a list of reports, or of one report that is not in a list. -/
def decodeValues (v : Value) : Decoding (List Download) := do
  let raws ← .lift (rawDownloads v)
  let ds ← Traced.forEach Download.ofRaw raws
  .note [.decodedList ds.length]
  return ds

/-- Finds the report in a text and goes on with its value. -/
def decodeWith {α : Type} (next : Value → Decoding α) (text : String) : Decoding α := do
  let v ← .lift (parse text)
  let v ← payload v
  next v

/-- The report in a text, taken out of the answer around it if there is one. -/
def report (text : String) : Decoding Value := do
  let v ← .lift (parse text)
  payload v

/-- Decoding is finding the report and going on with it. -/
theorem decodeWith_eq_bind {α : Type} (next : Value → Decoding α) (text : String) :
    decodeWith next text = report text >>= next :=
  (Traced.andThen_assoc _ _ _).symm

theorem decode_eq_bind (text : String) : decode text = report text >>= decodeValue :=
  decodeWith_eq_bind decodeValue text

theorem decodeAll_eq_bind (text : String) : decodeAll text = report text >>= decodeValues :=
  decodeWith_eq_bind decodeValues text

/-- The report in a text is the one in its value. -/
theorem report_eq {text : String} {v : Value} (hparse : Value.parse text = .ok v) :
    report text = payload v := by
  rw [report, parse, hparse]
  rfl

section Report

variable {text : String} {v report : Value} {events : List Event}

/-- A report is decoded behind the events of finding it. -/
theorem decodeWith_eq {α : Type} (next : Value → Decoding α) (hparse : Value.parse text = .ok v)
    (hpayload : payload v = ⟨events, .ok report⟩) :
    decodeWith next text = ⟨events ++ (next report).events, (next report).outcome⟩ := by
  have hreport : (payload v).outcome = .ok report := by rw [hpayload]
  rw [decodeWith_eq_bind, report_eq hparse, Traced.bind_of_ok hreport, hpayload]

theorem decode_eq (hparse : Value.parse text = .ok v)
    (hpayload : payload v = ⟨events, .ok report⟩) :
    decode text = ⟨events ++ (decodeValue report).events, (decodeValue report).outcome⟩ :=
  decodeWith_eq decodeValue hparse hpayload

theorem decodeAll_eq (hparse : Value.parse text = .ok v)
    (hpayload : payload v = ⟨events, .ok report⟩) :
    decodeAll text = ⟨events ++ (decodeValues report).events, (decodeValues report).outcome⟩ :=
  decodeWith_eq decodeValues hparse hpayload

/-- What is no answer is a report. -/
theorem payload_of_not_reply (h : isReply v = false) : payload v = ⟨[], .ok v⟩ := by
  rw [payload, h]
  rfl

/-- A report by itself is decoded as it is. -/
theorem decode_of_not_reply (hparse : Value.parse text = .ok v) (h : isReply v = false) :
    decode text = decodeValue v :=
  decode_eq hparse (payload_of_not_reply h)

theorem decodeAll_of_not_reply (hparse : Value.parse text = .ok v) (h : isReply v = false) :
    decodeAll text = decodeValues v :=
  decodeAll_eq hparse (payload_of_not_reply h)

end Report

/-! ### Shapes -/

namespace Shapes

open Json (Shape Fields)

theorem wellKeyed_rawUri : rawUri.WellKeyed := by
  simp [rawUri, Shape.WellKeyed, Fields.WellKeyed, Fields.text, Fields.keys]

theorem wellKeyed_rawFile : rawFile.WellKeyed := by
  simp [rawFile, Shape.WellKeyed, Fields.WellKeyed, Fields.text, Fields.optional, Fields.keys,
    wellKeyed_rawUri]

theorem wellKeyed_rawInfo : rawInfo.WellKeyed := by
  simp [rawInfo, Shape.WellKeyed, Fields.WellKeyed, Fields.text, Fields.keys]

theorem wellKeyed_rawTorrent : rawTorrent.WellKeyed := by
  simp [rawTorrent, announceList, Shape.WellKeyed, Fields.WellKeyed, Fields.optional, Fields.keys,
    wellKeyed_rawInfo]

theorem wellKeyed_rawDownload : rawDownload.WellKeyed := by
  simp [rawDownload, Shape.WellKeyed, Fields.WellKeyed, Fields.text, Fields.optional, Fields.keys,
    wellKeyed_rawFile, wellKeyed_rawTorrent]

theorem wellKeyed_download : download.WellKeyed := wellKeyed_rawDownload

theorem wellKeyed_reply {α : Type} {result : Shape α} (h : result.WellKeyed) :
    (reply result).WellKeyed := by
  simp [reply, serverError, Shape.WellKeyed, Fields.WellKeyed, Fields.text, Fields.optional,
    Fields.keys, h]

end Shapes

end DownloadReport

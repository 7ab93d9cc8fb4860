import DownloadReport.Inspection
import DownloadReport.Proofs.Listing
import DownloadReport.Proofs.Refusals

/-! Diagnostics are clean. What keeps a report from being decoded is said with texts that the server
    chose: the value of a counter, a flag or a date, a piece map with the first character that is no
    digit, a string in the place of something else. All of them are quoted, and everything else in a
    message is made here, so no message holds a control character, a line break for instance
    (`decode_diagnostics`). Only the server's own errors are passed on as they came. -/

namespace DownloadReport

/-! ### Clean texts -/

namespace Text

/-- No control is among the characters. -/
def NoControl (cs : List Char) : Prop := ∀ c ∈ cs, ¬IsControl c

-- The characters of the list are looked at, and not all characters there are.
instance (cs : List Char) : Decidable (NoControl cs) :=
  @List.decidableBAll _ (fun c => ¬IsControl c) (fun _ => inferInstance) cs

theorem noControl_append {cs ds : List Char} :
    NoControl (cs ++ ds) ↔ NoControl cs ∧ NoControl ds := List.forall_mem_append

theorem NoControl.sublist {cs ds : List Char} (h : NoControl ds) (hsub : cs.Sublist ds) :
    NoControl cs :=
  fun c hc => h c (hsub.mem hc)

theorem noControl_toDigits (n : Nat) : NoControl (Nat.toDigits 10 n) := by
  intro c hc hcontrol
  have hdigit := Nat.isDigit_of_mem_toDigits (by decide) (by decide) hc
  simp only [Char.isDigit, Bool.and_eq_true, decide_eq_true_eq, UInt32.le_iff_toNat_le] at hdigit
  have hlow : 48 ≤ c.toNat := hdigit.1
  have hhigh : c.toNat ≤ 57 := hdigit.2
  rcases hcontrol with hbelow | ⟨habove, _⟩
  · omega
  · omega

theorem noControl_zeros (n : Nat) : NoControl (List.replicate n '0') := by
  intro c hc
  rw [List.eq_of_mem_replicate hc]
  decide

/-- A text without control characters. -/
def IsClean (s : String) : Prop := NoControl s.toList

instance (s : String) : Decidable (IsClean s) := inferInstanceAs (Decidable (NoControl s.toList))

theorem isClean_append {s t : String} : IsClean (s ++ t) ↔ IsClean s ∧ IsClean t := by
  rw [IsClean, String.toList_append, noControl_append]
  exact .rfl

theorem isClean_ofList {cs : List Char} : IsClean (String.ofList cs) ↔ NoControl cs := by
  rw [IsClean, String.toList_ofList]

theorem isClean_quoted (s : String) : IsClean (quoted s) := fun _ => not_control_of_mem_quoted

theorem isClean_quotedChar (c : Char) : IsClean (quotedChar c) :=
  fun _ => not_control_of_mem_quotedChar

theorem isClean_repr (n : Nat) : IsClean n.repr := by
  rw [IsClean, Nat.toList_repr]
  exact noControl_toDigits n

theorem isClean_ofInteger (n : Int) : IsClean (String.ofList (Decimal.ofInteger n)) := by
  rw [isClean_ofList]
  cases n with
  | ofNat n => exact noControl_toDigits n
  | negSucc n => exact List.forall_mem_cons.2 ⟨by decide, noControl_toDigits (n + 1)⟩

end Text

open Text (NoControl IsClean noControl_append isClean_append isClean_ofList isClean_quoted
  isClean_quotedChar isClean_repr isClean_ofInteger)

/-! ### Numbers -/

/-- A decimal is laid out with digits, a point, and an exponent. -/
theorem noControl_write (l : Decimal.Layout) (d : Decimal.Scientific) : NoControl (l.write d) := by
  have htrimmed : NoControl ((Nat.toDigits 10 d.digits).reverse.dropWhile (· = '0')).reverse := by
    intro c hc
    have hkept := (List.dropWhile_sublist _).mem (List.mem_reverse.1 hc)
    exact Text.noControl_toDigits _ c (List.mem_reverse.1 hkept)
  simp only [Decimal.Layout.write]
  generalize ((Nat.toDigits 10 d.digits).reverse.dropWhile (· = '0')).reverse = trimmed at htrimmed ⊢
  have hpadded : ∀ n, NoControl (trimmed ++ List.replicate n '0') := fun n =>
    noControl_append.2 ⟨htrimmed, Text.noControl_zeros n⟩
  split
  next =>
    split
    next =>
      simp only [noControl_append]
      exact ⟨⟨by decide, Text.noControl_zeros _⟩, htrimmed⟩
    next =>
      simp only [noControl_append]
      refine ⟨⟨(hpadded _).sublist (List.take_sublist _ _), by decide⟩, ?_⟩
      split
      · decide
      · exact (hpadded _).sublist (List.drop_sublist _ _)
  next =>
    simp only [noControl_append]
    refine ⟨⟨⟨htrimmed.sublist (List.take_sublist _ _), ?_⟩, ?_⟩, Text.noControl_toDigits _⟩
    · split
      · decide
      · exact List.forall_mem_cons.2 ⟨by decide, htrimmed.sublist (List.drop_sublist _ _)⟩
    · split <;> decide

theorem isClean_number (n : Json.Number) : IsClean n.text := by
  cases n with
  | integer n _ => exact isClean_ofInteger n
  | float x =>
    rw [Json.Number.text]
    cases Decimal.Binary64.ofFloat x with
    | infinite _ | notANumber =>
      show IsClean "null"
      decide
    | finite negative mantissa exponent =>
      rw [isClean_ofList, Decimal.Layout.writeFinite, noControl_append]
      constructor
      · cases negative <;> decide
      · split
        · decide
        · exact noControl_write _ _

/-! ### What can be wrong with a text or a value -/

/-- A fault of the text is told without the text. -/
theorem isClean_fault (f : Json.Fault) : IsClean f.message := by
  cases f <;> decide

theorem isClean_found (found : Json.Found) : IsClean found.text := by
  cases found with
  | null | list | object => decide
  | bool b => cases b <;> decide
  | number n =>
    cases n with
    | integer n fits =>
      show IsClean ("integer `" ++ (Json.Number.integer n fits).text ++ "`")
      simp only [isClean_append]
      exact ⟨⟨by decide, isClean_number _⟩, by decide⟩
    | float x =>
      show IsClean ("floating point `" ++ (Json.Number.float x).text ++ "`")
      simp only [isClean_append]
      exact ⟨⟨by decide, isClean_number _⟩, by decide⟩
  | string s => exact isClean_append.2 ⟨by decide, isClean_quoted s⟩

/-- A computation that fails does so for a reason with the property. -/
def FailsWith {ε α : Type} (P : ε → Prop) (x : Except ε α) : Prop := ∀ e, x = .error e → P e

section FailsWith

variable {ε δ α β : Type} {P : ε → Prop} {x : Except ε α}

theorem failsWith_ok (a : α) : FailsWith P (.ok a) := nofun

theorem failsWith_error {e : ε} (h : P e) : FailsWith P (.error e : Except ε α) := by
  rintro _ ⟨⟩
  exact h

/-- A sequence fails in one of its parts. -/
theorem FailsWith.bind {f : α → Except ε β} (hx : FailsWith P x) (hf : ∀ a, FailsWith P (f a)) :
    FailsWith P (x >>= f) := by
  intro e he
  rcases bind_eq_error_iff.1 he with he | ⟨a, _, he⟩
  · exact hx e he
  · exact hf a e he

theorem FailsWith.map {f : α → β} (hx : FailsWith P x) : FailsWith P (x.map f) :=
  fun e he => hx e (map_eq_error_iff.1 he)

theorem FailsWith.mapError {Q : δ → Prop} {f : ε → δ} (hx : FailsWith P x)
    (hf : ∀ e, P e → Q (f e)) : FailsWith Q (x.mapError f) := by
  intro e he
  obtain ⟨e', he', rfl⟩ := mapError_eq_error_iff.1 he
  exact hf e' (hx e' he')

theorem FailsWith.mapM {f : α → Except ε β} (hf : ∀ a, FailsWith P (f a)) (as : List α) :
    FailsWith P (as.mapM f) := by
  intro e he
  obtain ⟨_, a, _, _, _, ha⟩ := mapM_eq_error_iff.1 he
  exact hf a e ha

end FailsWith

namespace Json

/-- What went wrong is told in a clean text. -/
def ReadError.IsClean (e : ReadError) : Prop := Text.IsClean e.message

mutual
/-- What a shape says of itself in an error is clean: the names of its records and forms, their keys,
    and the reasons for which something is turned down. -/
def Shape.IsClean : {α : Type} → Shape α → Prop
  | _, .string | _, .signed | _, .anything => True
  | _, .nullable s => s.IsClean
  | _, .list s => s.IsClean
  | _, .record name fields => Text.IsClean name ∧ fields.IsClean
  | _, .forms name _ => Text.IsClean name
  | _, .refine s make => s.IsClean ∧ ∀ a reason, make a = .error reason → Text.IsClean reason
def Fields.IsClean : {α : Type} → Fields α → Prop
  | _, .build _ => True
  | _, .field before key s _ => before.IsClean ∧ Text.IsClean key ∧ s.IsClean
end

theorem isClean_wrongKind {found : Found} {expected : Expected} (h : Text.IsClean expected.text) :
    (ReadError.wrongKind found expected).IsClean := by
  show Text.IsClean ("invalid type: " ++ found.text ++ ", expected " ++ expected.text)
  simp only [isClean_append]
  exact ⟨⟨⟨by decide, isClean_found found⟩, by decide⟩, h⟩

theorem isClean_record {name : String} (h : Text.IsClean name) :
    Text.IsClean (Expected.record name).text :=
  isClean_append.2 ⟨by decide, h⟩

theorem isClean_unsigned (n : Int) : (ReadError.unsigned n).IsClean := by
  show Text.IsClean ("invalid value: integer `" ++ String.ofList (Decimal.ofInteger n) ++
    "`, expected " ++ Expected.signed.text)
  simp only [isClean_append]
  exact ⟨⟨⟨by decide, isClean_ofInteger n⟩, by decide⟩, by decide⟩

theorem isClean_tooShort {name : String} (items fields : Nat) (h : Text.IsClean name) :
    (ReadError.tooShort items name fields).IsClean := by
  show Text.IsClean ("invalid length " ++ items.repr ++ ", expected " ++ (Expected.record name).text ++
    " with " ++ fields.repr ++ (if fields = 1 then " element" else " elements"))
  simp only [isClean_append]
  refine ⟨⟨⟨⟨⟨⟨by decide, isClean_repr items⟩, by decide⟩, isClean_record h⟩, by decide⟩,
    isClean_repr fields⟩, ?_⟩
  split <;> decide

theorem isClean_tooLong (items : Nat) : (ReadError.tooLong items).IsClean := by
  show Text.IsClean ("invalid length " ++ items.repr ++ ", expected fewer elements in array")
  simp only [isClean_append]
  exact ⟨⟨by decide, isClean_repr items⟩, by decide⟩

theorem isClean_duplicateField {key : String} (h : Text.IsClean key) :
    (ReadError.duplicateField key).IsClean := by
  show Text.IsClean ("duplicate field `" ++ key ++ "`")
  simp only [isClean_append]
  exact ⟨⟨by decide, h⟩, by decide⟩

theorem isClean_missingField {key : String} (h : Text.IsClean key) :
    (ReadError.missingField key).IsClean := by
  show Text.IsClean ("missing field `" ++ key ++ "`")
  simp only [isClean_append]
  exact ⟨⟨by decide, h⟩, by decide⟩

theorem isClean_noForm {name : String} (h : Text.IsClean name) : (ReadError.noForm name).IsClean :=
  isClean_append.2 ⟨by decide, h⟩

section Reading

variable {σ : Type}

theorem failsWith_liftFault {α : Type} (x : Except Fault α) :
    FailsWith ReadError.IsClean (liftFault x) := by
  cases x with
  | ok a => exact failsWith_ok a
  | error f => exact failsWith_error (isClean_fault f)

theorem failsWith_readSigned (v : View σ) : FailsWith ReadError.IsClean (readSigned v) := by
  unfold readSigned
  split
  next n _ =>
    split
    · exact failsWith_ok _
    · exact failsWith_error (isClean_unsigned n)
  next => exact failsWith_error (isClean_wrongKind (by decide))

theorem failsWith_readElements {α : Type} {read : σ → Except ReadError α}
    (hread : ∀ x, FailsWith ReadError.IsClean (read x)) (elements : Elements σ) :
    FailsWith ReadError.IsClean (readElements read elements) := by
  induction elements with
  | done => exact failsWith_ok []
  | fault f => exact failsWith_error (isClean_fault f)
  | next x tail ih =>
    exact (hread x).bind fun a => ih.bind fun as => failsWith_ok (a :: as)

variable [Viewable σ]

theorem failsWith_readEntries {τ : Type}
    {put : String → Except Fault σ → τ → Option (Except ReadError τ)}
    (hput : ∀ key x slots filled, put key x slots = some filled →
      FailsWith ReadError.IsClean filled) (entries : Entries σ) (slots : τ) :
    FailsWith ReadError.IsClean (readEntries put entries slots) := by
  induction entries generalizing slots with
  | done => exact failsWith_ok slots
  | fault f => exact failsWith_error (isClean_fault f)
  | entry key x rest ih =>
    rw [readEntries]
    split
    next filled hfilled => exact (hput key x slots filled hfilled).bind ih
    next =>
      exact (failsWith_liftFault x).bind fun y =>
        (failsWith_liftFault (Viewable.skim y)).bind fun _ => ih slots

theorem failsWith_checkSurplus (fields : Nat) (elements : Elements σ) :
    FailsWith ReadError.IsClean (checkSurplus fields elements) := by
  unfold checkSurplus
  split
  · exact failsWith_ok ()
  · exact failsWith_error (isClean_fault _)
  · exact failsWith_error (isClean_fault _)
  · split
    · exact failsWith_error (isClean_fault _)
    · exact failsWith_error (isClean_tooLong _)

/-- Of a record only a key can be missing. -/
theorem Fields.failsWith_finish : ∀ {α : Type} (f : Fields α), f.IsClean → ∀ slots : f.Slots,
    FailsWith ReadError.IsClean (f.finish slots)
  | _, .build a, _, _ => failsWith_ok a
  | _, @Fields.field _ β before key s absent, hf, slots => by
    obtain ⟨hbefore, hkey, _⟩ := hf
    obtain ⟨earlier, slot⟩ : before.Slots × Option β := slots
    refine (Fields.failsWith_finish before hbefore earlier).bind fun make => ?_
    split
    next b _ => exact failsWith_ok (make b)
    next => exact failsWith_error (isClean_missingField hkey)

mutual
/-- A reader with a clean shape fails with a clean message, whatever it reads. -/
theorem Shape.failsWith_read : ∀ {α : Type} (s : Shape α), s.IsClean → ∀ x : σ,
    FailsWith ReadError.IsClean (s.read x)
  | _, .string, _, x => by
    refine (failsWith_liftFault _).bind fun v => ?_
    split
    · exact failsWith_ok _
    · exact failsWith_error (isClean_wrongKind (by decide))
  | _, .signed, _, x => (failsWith_liftFault _).bind fun v => failsWith_readSigned v
  | _, .anything, _, x => failsWith_liftFault _
  | _, .nullable s, hs, x => by
    refine (failsWith_liftFault _).bind fun v => ?_
    split
    · exact failsWith_ok none
    · exact (Shape.failsWith_read s hs x).map
  | _, .list s, hs, x => by
    refine (failsWith_liftFault _).bind fun v => ?_
    split
    · exact failsWith_readElements (fun y => Shape.failsWith_read s hs y) _
    · exact failsWith_error (isClean_wrongKind (by decide))
  | _, .record name fields, hs, x => by
    obtain ⟨hname, hfields⟩ := hs
    refine (failsWith_liftFault _).bind fun v => ?_
    split
    next elements =>
      exact (Fields.failsWith_readList fields hfields hname _ elements).bind fun r =>
        (failsWith_checkSurplus _ r.2).bind fun _ => failsWith_ok _
    next entries =>
      have hput := fun key x slots filled => Fields.failsWith_put fields hfields key x slots filled
      exact (failsWith_readEntries hput entries _).bind fun slots =>
        fields.failsWith_finish hfields slots
    next => exact failsWith_error (isClean_wrongKind (isClean_record hname))
  | _, .forms name pick, hname, x => by
    refine (failsWith_liftFault _).bind fun v => ?_
    split
    · exact failsWith_ok _
    · exact failsWith_error (isClean_noForm hname)
  | _, .refine s make, hs, x => by
    obtain ⟨hs, hmake⟩ := hs
    refine (Shape.failsWith_read s hs x).bind fun a => ?_
    split
    · exact failsWith_ok _
    next reason hreason => exact failsWith_error (hmake a reason hreason)
theorem Fields.failsWith_put : ∀ {α : Type} (f : Fields α), f.IsClean → ∀ (key : String)
    (x : Except Fault σ) (slots : f.Slots) (filled : Except ReadError f.Slots),
    f.put key x slots = some filled → FailsWith ReadError.IsClean filled
  | _, .build _, _, _, _, _, _, h => nomatch h
  | _, @Fields.field _ β before k s absent, hf, key, x, slots, filled, h => by
    obtain ⟨hbefore, hkey, hs⟩ := hf
    obtain ⟨earlier, slot⟩ : before.Slots × Option β := slots
    simp only [Fields.put] at h
    split at h
    · obtain rfl := Option.some.inj h
      cases slot with
      | some _ => exact failsWith_error (isClean_duplicateField hkey)
      | none =>
        exact (failsWith_liftFault x).bind fun y =>
          (Shape.failsWith_read s hs y).bind fun b => failsWith_ok _
    · obtain ⟨outcome, hput, rfl⟩ := Option.map_eq_some_iff.1 h
      exact (Fields.failsWith_put before hbefore key x earlier outcome hput).map
theorem Fields.failsWith_readList : ∀ {α : Type} (f : Fields α), f.IsClean → ∀ {name : String},
    Text.IsClean name → ∀ (total : Nat) (elements : Elements σ),
    FailsWith ReadError.IsClean (f.readList name total elements)
  | _, .build a, _, _, _, _, elements => failsWith_ok (a, elements)
  | _, .field before key s absent, hf, name, hname, total, elements => by
    obtain ⟨hbefore, hkey, hs⟩ := hf
    refine (Fields.failsWith_readList before hbefore hname total elements).bind fun r => ?_
    obtain ⟨make, rest⟩ := r
    cases rest with
    | next x tail => exact (Shape.failsWith_read s hs x).bind fun b => failsWith_ok _
    | fault f => exact failsWith_error (isClean_fault f)
    | done =>
      cases absent with
      | some b => exact failsWith_ok _
      | none => exact failsWith_error (isClean_tooShort _ _ hname)
end

end Reading

end Json

/-! ### Records -/

namespace Shapes

open Json (Shape Fields)

theorem isClean_rawUri : rawUri.IsClean := by
  simp only [rawUri, Shape.IsClean, Fields.IsClean, Fields.text]
  decide

theorem isClean_rawFile : rawFile.IsClean := by
  have huri := isClean_rawUri
  simp only [rawFile, Shape.IsClean, Fields.IsClean, Fields.text, Fields.optional, huri]
  decide

theorem isClean_rawInfo : rawInfo.IsClean := by
  simp only [rawInfo, Shape.IsClean, Fields.IsClean, Fields.text]
  decide

theorem isClean_rawTorrent : rawTorrent.IsClean := by
  have hinfo := isClean_rawInfo
  simp only [rawTorrent, announceList, Shape.IsClean, Fields.IsClean, Fields.optional, hinfo]
  decide

theorem isClean_rawDownload : rawDownload.IsClean := by
  have hfile := isClean_rawFile
  have htorrent := isClean_rawTorrent
  simp only [rawDownload, Shape.IsClean, Fields.IsClean, Fields.text, Fields.optional, hfile,
    htorrent]
  decide

theorem isClean_reply : (reply .anything).IsClean := by
  simp only [reply, serverError, Shape.IsClean, Fields.IsClean, Fields.text, Fields.optional]
  decide

end Shapes

/-! ### Scalars -/

/-- An error is the server's own, or it is told in a clean text. -/
def DecodeError.IsClean (e : DecodeError) : Prop := e.isPayloadError = true → Text.IsClean e.message

theorem isClean_json {reason : String} (h : IsClean reason) : (DecodeError.json reason).IsClean :=
  fun _ => isClean_append.2 ⟨by decide, h⟩

theorem isClean_typeMismatch {field reason : String} (hfield : IsClean field)
    (hreason : IsClean reason) : (DecodeError.typeMismatch field reason).IsClean := by
  intro _
  show IsClean ("Type mismatch in `" ++ field ++ "`: " ++ reason)
  simp only [isClean_append]
  exact ⟨⟨⟨by decide, hfield⟩, by decide⟩, hreason⟩

theorem isClean_hexReason (raw : String) (fault : Hex.Error) :
    IsClean (Scalar.hexReason raw fault) := by
  cases fault with
  | oddLength => exact isClean_append.2 ⟨by decide, isClean_quoted raw⟩
  | invalidByte byte position =>
    show IsClean ("Invalid character " ++ Text.quotedChar (Char.ofNat byte.toNat) ++
      " at position " ++ position.repr ++ " in " ++ Text.quoted raw)
    simp only [isClean_append]
    exact ⟨⟨⟨⟨⟨by decide, isClean_quotedChar _⟩, by decide⟩, isClean_repr position⟩, by decide⟩,
      isClean_quoted raw⟩

/-- What is wrong with a scalar is told with its text quoted. -/
theorem RawScalar.Refused.isClean {s : RawScalar} {e : DecodeError} (h : s.Refused e)
    (hfield : IsClean s.field) : e.IsClean := by
  cases h with
  | @number _ field raw _ =>
    intro _
    show IsClean ("Malformed numeric field `" ++ field ++ "`: " ++ Text.quoted raw)
    simp only [isClean_append]
    exact ⟨⟨⟨by decide, hfield⟩, by decide⟩, isClean_quoted raw⟩
  | @flag _ raw _ _ =>
    exact isClean_typeMismatch hfield (isClean_append.2 ⟨by decide, isClean_quoted raw⟩)
  | @pieceMap raw fault _ => exact isClean_typeMismatch (by decide) (isClean_hexReason raw fault)
  | @notANumber _ raw _ =>
    exact isClean_typeMismatch hfield (isClean_append.2 ⟨by decide, isClean_quoted raw⟩)
  | @outOfRange _ _ n _ _ _ =>
    refine isClean_typeMismatch hfield ?_
    simp only [Scalar.outOfRange, isClean_append]
    exact ⟨⟨by decide, isClean_ofInteger n⟩, by decide⟩

theorem isClean_field {raw : RawDownload} : ∀ s ∈ raw.scalars, IsClean s.field := by
  have hfile : ∀ f : RawFile, ∀ s ∈ f.scalars, IsClean s.field := by
    intro f
    simp only [RawFile.scalars, RawScalar.counter, List.forall_mem_cons, RawScalar.field]
    decide
  have htorrent : ∀ t : RawTorrent, ∀ s ∈ t.scalars, IsClean s.field := by
    intro t
    simp only [RawTorrent.scalars, List.forall_mem_cons, RawScalar.field]
    decide
  simp only [RawDownload.scalars, List.forall_mem_append, List.forall_mem_flatMap]
  refine ⟨⟨⟨?_, fun f _ => hfile f⟩, fun t _ => htorrent t⟩, ?_⟩
  · simp only [List.forall_mem_cons, RawScalar.field]
    decide
  · simp only [RawScalar.counter, List.forall_mem_cons, RawScalar.field]
    decide

/-! ### Decoding -/

open Json (Value Shape)

theorem failsWith_readAs {α : Type} {s : Shape α} (hs : s.IsClean) (v : Value) :
    FailsWith DecodeError.IsClean (readAs s v) :=
  (s.failsWith_read hs v).mapError fun _ => isClean_json

/-- A report is refused for a scalar. -/
theorem failsWith_ofRaw (raw : RawDownload) :
    FailsWith DecodeError.IsClean (Download.ofRaw raw).outcome := by
  intro e he
  have hchecks : (Download.ofRaw raw).outcome.map (fun _ => ()) = forM raw.scalars RawScalar.check :=
    Download.checks_ofRaw raw
  have hrow : forM raw.scalars RawScalar.check = .error e := hchecks ▸ map_eq_error_iff.2 he
  obtain ⟨before, s, after, hsplit, _, hs⟩ := forM_eq_error_iff.1 hrow
  have hmem : s ∈ raw.scalars := by simp [hsplit]
  exact (RawScalar.check_eq_error_iff.1 hs).isClean (isClean_field s hmem)

theorem failsWith_ofJson (text : String) :
    FailsWith DecodeError.IsClean (Download.ofJson text).outcome := by
  rw [outcome_ofJson]
  refine FailsWith.bind ?_ failsWith_ofRaw
  refine FailsWith.mapError (FailsWith.bind ?_ fun raw => ?_) fun _ => isClean_json
  · exact Shapes.rawDownload.failsWith_read Shapes.isClean_rawDownload _
  · exact (Json.failsWith_liftFault _).bind fun _ => failsWith_ok raw

/-- Of an answer that was read only the lack of a result is the report's fault. -/
theorem failsWith_outcome {α : Type} (r : Reply α) : FailsWith DecodeError.IsClean r.outcome := by
  unfold Reply.outcome
  split
  · exact failsWith_error nofun
  · split
    · exact failsWith_ok _
    · exact failsWith_error (isClean_json (by decide))

theorem failsWith_report (text : String) : FailsWith DecodeError.IsClean (report text).outcome := by
  have hparse : FailsWith DecodeError.IsClean (parse text) := by
    intro e he
    obtain ⟨fault, _, rfl⟩ := mapError_eq_error_iff.1 he
    exact isClean_json (isClean_fault fault)
  rw [report, Traced.outcome_bind, Traced.outcome_lift]
  refine hparse.bind fun v => ?_
  unfold payload
  split
  · simp only [Traced.outcome_bind, Traced.outcome_lift, Traced.outcome_note, ok_bind]
    exact (failsWith_readAs Shapes.isClean_reply v).bind fun r => failsWith_outcome r
  · exact failsWith_ok v

theorem failsWith_decode (text : String) : FailsWith DecodeError.IsClean (decode text).outcome := by
  rw [decode_eq_bind, Traced.outcome_bind]
  refine (failsWith_report text).bind fun v => ?_
  rw [outcome_decodeValue]
  exact (failsWith_readAs Shapes.isClean_rawDownload v).bind failsWith_ofRaw

theorem failsWith_decodeAll (text : String) :
    FailsWith DecodeError.IsClean (decodeAll text).outcome := by
  have hread := failsWith_readAs Shapes.isClean_rawDownload
  have hraws : ∀ v, FailsWith DecodeError.IsClean (rawDownloads v) := by
    intro v
    by_cases hlist : ∃ items, v = .array items
    · obtain ⟨items, rfl⟩ := hlist
      exact FailsWith.mapM hread items
    · rw [rawDownloads_single (not_exists.1 hlist)]
      exact (hread v).map
  rw [decodeAll_eq_bind, Traced.outcome_bind]
  refine (failsWith_report text).bind fun v => ?_
  rw [outcome_decodeValues]
  exact (hraws v).bind fun raws => FailsWith.mapM failsWith_ofRaw raws

/-- Whatever a text holds: when it cannot be decoded, and not because the server answered with an error
    of its own, the reason is told without control characters, and so is the failure to show it. -/
theorem decode_diagnostics (text : String) (e : DecodeError)
    (h : (Download.ofJson text).outcome = .error e ∨ (decode text).outcome = .error e ∨
      (decodeAll text).outcome = .error e) (hpayload : e.isPayloadError = true) :
    IsClean e.message ∧ InspectError.ofDecodeError e = .decode e.message ∧
      IsClean (InspectError.ofDecodeError e).message := by
  have hclean : IsClean e.message := by
    rcases h with h | h | h
    · exact failsWith_ofJson text e h hpayload
    · exact failsWith_decode text e h hpayload
    · exact failsWith_decodeAll text e h hpayload
  have hkind : InspectError.ofDecodeError e = .decode e.message := by
    simp [InspectError.ofDecodeError, hpayload]
  refine ⟨hclean, hkind, ?_⟩
  rw [hkind]
  exact isClean_append.2 ⟨by decide, hclean⟩

/-- A line break and an escape in the value of a counter. -/
theorem decode_diagnostics_escape :
    (decode "\x7b\"totalLength\": \"1\\n\\u001b[31m\"\x7d").outcome =
        .error (.malformedNumber "totalLength" "1\n\x1b[31m") ∧
      (InspectError.ofDecodeError (.malformedNumber "totalLength" "1\n\x1b[31m")).message =
        "Could not decode status: Malformed numeric field `totalLength`: \"1\\n\\u\x7b1b\x7d[31m\"" ∧
      IsClean (InspectError.ofDecodeError (.malformedNumber "totalLength" "1\n\x1b[31m")).message := by
  have hparse : Value.parse "\x7b\"totalLength\": \"1\\n\\u001b[31m\"\x7d" =
      .ok (.object [("totalLength", .string "1\n\x1b[31m")]) :=
    Value.parse_of_outline (Json.Outline.of_eq (by cbv) (by rfl)) (by rfl)
  have h : (decode "\x7b\"totalLength\": \"1\\n\\u001b[31m\"\x7d").outcome =
      .error (.malformedNumber "totalLength" "1\n\x1b[31m") := by
    rw [decode_of_not_reply hparse rfl]
    rfl
  exact ⟨h, by decide +kernel, (decode_diagnostics _ _ (.inr (.inl h)) rfl).2.2⟩

end DownloadReport

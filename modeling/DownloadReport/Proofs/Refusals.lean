import DownloadReport.Proofs.Conversion
import DownloadReport.Proofs.Hexadecimal
import DownloadReport.Proofs.Numerals

/-! Which raw reports are refused, and for what. The scalars of a report stand in one row, those of its
    files and of its torrent included. For each of them it is said by itself when it is well formed
    and how it is refused otherwise; decoding checks the row from left to right (`checks_ofRaw`), so a
    report is decoded when all of its scalars are well formed, and otherwise refused for the first
    one that is not (`refused_for_first`). -/

namespace DownloadReport

/-! ### Rows of checks -/

section

variable {ε α : Type} {f : α → Except ε Unit} {as : List α}

/-- A row of checks succeeds when each of them does. -/
theorem forM_eq_ok_iff : forM as f = .ok () ↔ ∀ a ∈ as, f a = .ok () := by
  induction as with
  | nil => simp [pure, Except.pure]
  | cons a as ih => rw [List.forM_cons, check_eq_ok_iff, ih, List.forall_mem_cons]

/-- A row of checks is a list of computations with nothing to return. -/
theorem forM_eq_map_mapM : forM as f = (as.mapM f).map fun _ => () := by
  induction as with
  | nil => rfl
  | cons a as ih =>
    rw [List.forM_cons, List.mapM_cons, ih]
    cases f a with
    | error e => rfl
    | ok u => cases as.mapM f <;> rfl

/-- A row of checks fails at the first of them that fails. -/
theorem forM_eq_error_iff {e : ε} : forM as f = .error e ↔
    ∃ before a after, as = before ++ a :: after ∧ (∀ b ∈ before, f b = .ok ()) ∧ f a = .error e := by
  have hok : ∀ b, (∃ c, f b = .ok c) ↔ f b = .ok () := fun b => ⟨fun ⟨(), h⟩ => h, fun h => ⟨(), h⟩⟩
  simp only [forM_eq_map_mapM, map_eq_error_iff, mapM_eq_error_iff, hok]

end

namespace Traced

variable {η ε σ α β : Type} {check : σ → Except ε Unit}

/-- A computation succeeds or fails as a row of checks does. -/
def Checks (check : σ → Except ε Unit) (x : Traced η ε α) (row : List σ) : Prop :=
  x.outcome.map (fun _ => ()) = forM row check

theorem checks_pure (a : α) : Checks check (pure a : Traced η ε α) [] := rfl

theorem checks_note (events : List η) : Checks check (note events : Traced η ε Unit) [] := rfl

theorem checks_lift {x : Except ε α} {s : σ} (h : x.map (fun _ => ()) = check s) :
    Checks check (lift x : Traced η ε α) [s] := by
  unfold Checks
  rw [outcome_lift, h, List.forM_cons]
  cases check s <;> rfl

/-- Of two parts the checks of the first one come first. -/
theorem Checks.bind {x : Traced η ε α} {f : α → Traced η ε β} {row row' : List σ}
    (hx : Checks check x row) (hf : ∀ a, Checks check (f a) row') :
    Checks check (x >>= f) (row ++ row') := by
  unfold Checks at *
  rw [outcome_bind, List.forM_append, ← hx]
  cases x.outcome with
  | error e => rfl
  | ok a => exact hf a

theorem Checks.forEach {f : α → Traced η ε β} {g : α → List σ} (hf : ∀ a, Checks check (f a) (g a)) :
    ∀ as : List α, Checks check (Traced.forEach f as) (as.flatMap g)
  | [] => checks_pure _
  | a :: as => by
    rw [List.flatMap_cons, ← List.append_nil (as.flatMap g)]
    exact (hf a).bind fun _ => (Checks.forEach hf as).bind fun _ => checks_pure _

theorem Checks.forSome {f : α → Traced η ε β} {g : α → List σ} (hf : ∀ a, Checks check (f a) (g a))
    (a : Option α) : Checks check (Traced.forSome f a) (a.toList.flatMap g) := by
  cases a with
  | none => exact checks_pure _
  | some a =>
    show Checks check (f a >>= fun b => pure (some b)) (g a ++ [])
    exact (hf a).bind fun _ => checks_pure _

end Traced

/-! ### Scalars -/

/-- A scalar of a raw report: what it should be, the name of its field unless there is only one such
    field, and its text if it is there. -/
inductive RawScalar where
  /-- A number below a bound. -/
  | number (bound : Nat) (field : String) (text : Option String)
  | flag (field : String) (text : Option String)
  | pieceMap (text : Option String)
  | instant (field : String) (text : Option String)

namespace RawScalar

open Decimal (IsNumeral DenotesInteger)

def field : RawScalar → String
  | .number _ field _ | .flag field _ | .instant field _ => field
  | .pieceMap _ => "bitfield"

/-- Reads a scalar and forgets what was read. -/
def check : RawScalar → Except DecodeError Unit
  | .number bound field text => (Scalar.below bound field text).map fun _ => ()
  | .flag field text => (Scalar.flag field text).map fun _ => ()
  | .pieceMap text => (Scalar.pieceMap text).map fun _ => ()
  | .instant field text => (text.mapM (Scalar.instant field)).map fun _ => ()

/-- Whether the text is one of those that the scalar may have; it may always be left out. -/
def WellFormed : RawScalar → Prop
  | .number bound _ text =>
    ∀ raw ∈ text, IsNumeral raw.toList ∧ Nat.ofDigitChars 10 raw.toList 0 < bound
  | .flag _ text => ∀ raw ∈ text, raw = "true" ∨ raw = "false"
  | .pieceMap text => ∀ raw ∈ text, Hex.IsHex raw
  | .instant _ text =>
    ∀ raw ∈ text, ∃ n, DenotesInteger raw.toList n ∧ firstSecond ≤ n ∧ n ≤ lastSecond

/-- How a scalar is refused. Of a number the text is kept; of the others it is said what is wrong with
    the text. -/
inductive Refused : RawScalar → DecodeError → Prop where
  | number {bound : Nat} {field raw : String}
      (h : ¬(IsNumeral raw.toList ∧ Nat.ofDigitChars 10 raw.toList 0 < bound)) :
      Refused (.number bound field (some raw)) (.malformedNumber field raw)
  | flag {field raw : String} (htrue : raw ≠ "true") (hfalse : raw ≠ "false") :
      Refused (.flag field (some raw))
        (.typeMismatch field ("expected \"true\" or \"false\", got " ++ Text.quoted raw))
  | pieceMap {raw : String} {fault : Hex.Error} (h : Hex.Refused raw fault) :
      Refused (.pieceMap (some raw)) (.typeMismatch "bitfield" (Scalar.hexReason raw fault))
  /-- There is no integer, or none that 64 bits can hold. -/
  | notANumber {field raw : String}
      (h : ∀ n, DenotesInteger raw.toList n → ¬(-9223372036854775808 ≤ n ∧ n < 9223372036854775808)) :
      Refused (.instant field (some raw)) (.typeMismatch field (Scalar.notANumber raw))
  /-- There is such an integer, but no second of the calendar is its. -/
  | outOfRange {field raw : String} {n : Int} (h : DenotesInteger raw.toList n)
      (hfits : -9223372036854775808 ≤ n ∧ n < 9223372036854775808)
      (hrange : ¬(firstSecond ≤ n ∧ n ≤ lastSecond)) :
      Refused (.instant field (some raw)) (.typeMismatch field (Scalar.outOfRange n))

/-- A scalar is accepted when it is well formed. -/
theorem check_eq_ok_iff : ∀ {s : RawScalar}, s.check = .ok () ↔ s.WellFormed
  | .number _ _ none | .flag _ none | .pieceMap none | .instant _ none =>
    ⟨fun _ => nofun, fun _ => rfl⟩
  | .number bound field (some raw) => by
    simp [check, WellFormed, map_eq_ok_iff, Scalar.below_eq_ok_iff, Decimal.natural?_eq_some_iff]
  | .flag field (some raw) => by
    simp [check, WellFormed, map_eq_ok_iff, Scalar.flag_eq_ok_iff, Scalar.flagText, or_comm]
  | .pieceMap (some raw) => by
    simp [check, WellFormed, map_eq_ok_iff, Scalar.exists_pieceMap_iff]
  | .instant field (some raw) => by
    simp only [check, WellFormed, Option.mapM_some, map_eq_ok_iff, Option.mem_def, Option.some.injEq,
      forall_eq']
    constructor
    · rintro ⟨_, hdate, _⟩
      obtain ⟨t, ht, _⟩ := map_eq_ok_iff.1 hdate
      exact ⟨t.seconds, Decimal.integer?_eq_some_iff.1 (Scalar.instant_eq_ok_iff.1 ht), t.inRange⟩
    · rintro ⟨n, hn, hrange⟩
      obtain ⟨t, ht⟩ := Instant.exists_ofSeconds?_iff.2 hrange
      have ht : Scalar.instant field raw = .ok t := by
        rw [Scalar.instant_eq_ok_iff, Instant.ofSeconds?_eq_some_iff.1 ht]
        exact Decimal.integer?_eq_some_iff.2 hn
      exact ⟨_, map_eq_ok_iff.2 ⟨_, ht, rfl⟩, trivial⟩

/-- A scalar is refused for what is wrong with it. -/
theorem check_eq_error_iff {e : DecodeError} : ∀ {s : RawScalar}, s.check = .error e ↔ s.Refused e
  | .number _ _ none | .flag _ none | .pieceMap none | .instant _ none => ⟨nofun, nofun⟩
  | .number bound field (some raw) => by
    simp only [check, map_eq_error_iff, Scalar.below_eq_error_iff, Decimal.natural?_eq_some_iff]
    constructor
    · rintro ⟨h, rfl⟩
      exact .number fun ⟨hnumeral, hbound⟩ => h _ ⟨hnumeral, rfl⟩ hbound
    · intro hrefused
      cases hrefused with
      | number h => exact ⟨fun n hn hbound => h ⟨hn.1, hn.2 ▸ hbound⟩, rfl⟩
  | .flag field (some raw) => by
    simp only [check, map_eq_error_iff, Scalar.flag_eq_error_iff]
    constructor
    · rintro ⟨htrue, hfalse, rfl⟩
      exact .flag htrue hfalse
    · intro hrefused
      cases hrefused with
      | flag htrue hfalse => exact ⟨htrue, hfalse, rfl⟩
  | .pieceMap (some raw) => by
    simp only [check, map_eq_error_iff, Scalar.pieceMap_eq_error_iff]
    constructor
    · rintro ⟨fault, h, rfl⟩
      exact .pieceMap h
    · intro hrefused
      cases hrefused with
      | pieceMap h => exact ⟨_, h, rfl⟩
  | .instant field (some raw) => by
    have hmap : (some raw).mapM (Scalar.instant field) = (Scalar.instant field raw).map some :=
      Option.mapM_some raw _
    simp only [check, hmap, map_eq_error_iff, Scalar.instant_eq_error_iff,
      Decimal.integer?_eq_some_iff]
    constructor
    · rintro (⟨h, rfl⟩ | ⟨n, hn, hfits, hrange, rfl⟩)
      · exact .notANumber h
      · exact .outOfRange hn hfits hrange
    · intro hrefused
      cases hrefused with
      | notANumber h => exact .inl ⟨h, rfl⟩
      | outOfRange hn hfits hrange => exact .inr ⟨_, hn, hfits, hrange, rfl⟩

/-- Nothing well formed is refused, and what is refused is refused with its field. -/
theorem Refused.not_wellFormed {s : RawScalar} {e : DecodeError} (h : s.Refused e) :
    ¬s.WellFormed :=
  fun hs => nomatch (check_eq_error_iff.2 h).symm.trans (check_eq_ok_iff.2 hs)

theorem Refused.field? {s : RawScalar} {e : DecodeError} (h : s.Refused e) :
    e.field? = some s.field := by
  cases h <;> rfl

end RawScalar

/-! ### Rows of scalars -/

/-- A counter of 64 bits. -/
def RawScalar.counter (field : String) (text : Option String) : RawScalar :=
  .number UInt64.size field text

/-- The scalars of a file. -/
def RawFile.scalars (raw : RawFile) : List RawScalar :=
  [.counter "files.index" raw.index, .counter "files.length" raw.length,
    .counter "files.completedLength" raw.completedLength, .flag "files.selected" raw.selected]

/-- The only scalar of a torrent. -/
def RawTorrent.scalars (raw : RawTorrent) : List RawScalar :=
  [.instant "bittorrent.creationDate" raw.creationDate]

/-- The scalars of a report in the order in which they are checked. -/
def RawDownload.scalars (raw : RawDownload) : List RawScalar :=
  [.number UInt32.size "errorCode" raw.errorCode, .pieceMap raw.bitfield] ++
    (raw.files.getD []).flatMap RawFile.scalars ++ raw.bittorrent.toList.flatMap RawTorrent.scalars ++
    [.counter "totalLength" raw.totalLength, .counter "completedLength" raw.completedLength,
      .counter "uploadLength" raw.uploadLength, .counter "downloadSpeed" raw.downloadSpeed,
      .counter "uploadSpeed" raw.uploadSpeed, .counter "numSeeders" raw.numSeeders,
      .flag "seeder" raw.seeder, .counter "pieceLength" raw.pieceLength,
      .counter "numPieces" raw.numPieces, .counter "connections" raw.connections,
      .counter "verifiedLength" raw.verifiedLength,
      .flag "verifyIntegrityPending" raw.verifyIntegrityPending]

/-! ### Decoding -/

/-- A decoding that checks a row of scalars. -/
abbrev Decoding.Checks {α : Type} (x : Decoding α) (row : List RawScalar) : Prop :=
  Traced.Checks RawScalar.check x row

theorem checks_counter (field : String) (text : Option String) :
    Decoding.Checks (.lift (Scalar.counter field text)) [.counter field text] := by
  refine Traced.checks_lift ?_
  rw [Scalar.counter, RawScalar.counter, RawScalar.check]
  cases Scalar.below UInt64.size field text <;> rfl

theorem checks_exitCode (field : String) (text : Option String) :
    Decoding.Checks (.lift (Scalar.exitCode field text)) [.number UInt32.size field text] := by
  refine Traced.checks_lift ?_
  rw [Scalar.exitCode, RawScalar.check]
  cases Scalar.below UInt32.size field text <;> rfl

theorem checks_flag (field : String) (text : Option String) :
    Decoding.Checks (.lift (Scalar.flag field text)) [.flag field text] :=
  Traced.checks_lift rfl

theorem checks_pieceMap (text : Option String) :
    Decoding.Checks (.lift (Scalar.pieceMap text)) [.pieceMap text] :=
  Traced.checks_lift rfl

theorem FileEntry.checks_ofRaw (raw : RawFile) : Decoding.Checks (FileEntry.ofRaw raw) raw.scalars :=
  (checks_counter "files.index" raw.index).bind fun _ =>
  (checks_counter "files.length" raw.length).bind fun _ =>
  (checks_counter "files.completedLength" raw.completedLength).bind fun _ =>
  (checks_flag "files.selected" raw.selected).bind fun _ =>
  (Traced.checks_note _).bind fun _ => Traced.checks_pure _

theorem Torrent.checks_ofRaw (raw : RawTorrent) : Decoding.Checks (Torrent.ofRaw raw) raw.scalars :=
  (Traced.checks_lift rfl).bind fun _ => (Traced.checks_note _).bind fun _ => Traced.checks_pure _

/-- Decoding a report checks its scalars in their order. -/
theorem Download.checks_ofRaw (raw : RawDownload) :
    Decoding.Checks (Download.ofRaw raw) raw.scalars := by
  unfold RawDownload.scalars
  rw [List.append_assoc, List.append_assoc]
  exact
    (checks_exitCode "errorCode" raw.errorCode).bind fun _ =>
    (checks_pieceMap raw.bitfield).bind fun _ =>
    (Traced.Checks.forEach FileEntry.checks_ofRaw (raw.files.getD [])).bind fun _ =>
    (Traced.Checks.forSome Torrent.checks_ofRaw raw.bittorrent).bind fun _ =>
    (Traced.checks_note _).bind fun _ =>
    (checks_counter "totalLength" raw.totalLength).bind fun _ =>
    (checks_counter "completedLength" raw.completedLength).bind fun _ =>
    (checks_counter "uploadLength" raw.uploadLength).bind fun _ =>
    (checks_counter "downloadSpeed" raw.downloadSpeed).bind fun _ =>
    (checks_counter "uploadSpeed" raw.uploadSpeed).bind fun _ =>
    (checks_counter "numSeeders" raw.numSeeders).bind fun _ =>
    (checks_flag "seeder" raw.seeder).bind fun _ =>
    (checks_counter "pieceLength" raw.pieceLength).bind fun _ =>
    (checks_counter "numPieces" raw.numPieces).bind fun _ =>
    (checks_counter "connections" raw.connections).bind fun _ =>
    (checks_counter "verifiedLength" raw.verifiedLength).bind fun _ =>
    (checks_flag "verifyIntegrityPending" raw.verifyIntegrityPending).bind fun _ =>
    (Traced.checks_note _).bind fun _ => Traced.checks_pure _

/-- When a report is refused, and for what. It is decoded just when each of its scalars is well formed;
    and it is refused for the first scalar that is not, as this scalar is refused by itself, with the
    name of its field. -/
theorem refused_for_first (raw : RawDownload) :
    ((∃ d, (Download.ofRaw raw).outcome = .ok d) ↔ ∀ s ∈ raw.scalars, s.WellFormed) ∧
      ∀ e, (Download.ofRaw raw).outcome = .error e ↔
        ∃ before s after, raw.scalars = before ++ s :: after ∧ (∀ t ∈ before, t.WellFormed) ∧
          ¬s.WellFormed ∧ s.Refused e ∧ e.field? = some s.field := by
  have hchecks : (Download.ofRaw raw).outcome.map (fun _ => ()) = forM raw.scalars RawScalar.check :=
    Download.checks_ofRaw raw
  constructor
  · have hok : (∃ d, (Download.ofRaw raw).outcome = .ok d) ↔
        (Download.ofRaw raw).outcome.map (fun _ => ()) = .ok () := by
      simp [map_eq_ok_iff]
    rw [hok, hchecks, forM_eq_ok_iff]
    simp only [RawScalar.check_eq_ok_iff]
  · intro e
    rw [← map_eq_error_iff (f := fun _ => ()), hchecks, forM_eq_error_iff]
    simp only [RawScalar.check_eq_ok_iff, RawScalar.check_eq_error_iff]
    constructor
    · rintro ⟨before, s, after, hrow, hbefore, hs⟩
      exact ⟨before, s, after, hrow, hbefore, hs.not_wellFormed, hs, hs.field?⟩
    · rintro ⟨before, s, after, hrow, hbefore, _, hs, _⟩
      exact ⟨before, s, after, hrow, hbefore, hs⟩

-- The piece map is checked before the length, although it is named after it.
example : (Download.ofRaw { totalLength := some "-1", bitfield := some "0" }).outcome =
    .error (.typeMismatch "bitfield" "Odd number of digits in \"0\"") := by rfl

end DownloadReport

import DownloadReport.Proofs.Canonical
import DownloadReport.Vocabulary.Words

/-! What is lost of words and codes that are not known: nothing. Each text has a meaning of its own in a
    vocabulary and each number a code of its own, so texts and numbers come back as they were. In the
    other direction the only meanings and codes that do not come back are those that hold something
    known as if it were not (`vocabularies_keep_texts`). -/

namespace DownloadReport

/-! ### Words -/

namespace Word

variable {κ : Type} [Vocabulary κ]

theorem find?_eq_some_iff {s : String} {k : κ} : find? s = some k ↔ Vocabulary.word k = s :=
  Vocabulary.ofWord?_eq_some_iff s k

theorem find?_eq_none_iff {s : String} :
    (find? s : Option κ) = none ↔ ∀ k : κ, Vocabulary.word k ≠ s := by
  rw [Option.eq_none_iff_forall_ne_some]
  exact forall_congr' fun k => not_congr find?_eq_some_iff

theorem ofText_eq_known_iff {s : String} {k : κ} : ofText s = .known k ↔ find? s = some k := by
  unfold ofText
  cases (find? s : Option κ) <;> simp

theorem ofKnownText_eq_ok_iff {field s : String} {k : κ} :
    ofKnownText field s = .ok k ↔ find? s = some k := by
  unfold ofKnownText
  cases (find? s : Option κ) <;> simp

theorem ofKnownText_eq_error_iff {field s : String} {e : DecodeError} :
    (ofKnownText field s : Except DecodeError κ) = .error e ↔
      (find? s : Option κ) = none ∧ e = .unknownWord field s := by
  unfold ofKnownText
  cases (find? s : Option κ) <;> simp [eq_comm]

theorem toString_eq_text (w : Word κ) : toString w = w.text := by
  cases w <;> rfl

/-- A meaning that comes back of its text holds no word as if that were not known. -/
theorem ofText_text_eq_iff {w : Word κ} :
    ofText w.text = w ↔ ∀ k : κ, w ≠ .other (Vocabulary.word k) := by
  rw [ofText_text, canonical_eq_iff]
  cases w with
  | known k => exact ⟨fun _ _ => nofun, fun _ => trivial⟩
  | other raw =>
    rw [IsCanonical, find?_eq_none_iff]
    exact forall_congr' fun k => not_congr (by rw [other.injEq, eq_comm])

/-- A vocabulary with the `words` in which each text has a meaning that it can be had back from. -/
structure KeepsTexts (κ : Type) [Vocabulary κ] (words : List String) : Prop where
  /-- Just the words have a known meaning. -/
  known_iff : ∀ s, (∃ k : κ, ofText s = .known k) ↔ s ∈ words
  text_ofText : ∀ s, (ofText s : Word κ).text = s
  injective : Function.Injective (ofText : String → Word κ)
  /-- A meaning turns into its text. -/
  toString_eq : ∀ w : Word κ, toString w = w.text
  /-- A meaning comes back of its text, unless it holds a word as if that were not known. -/
  ofText_text_iff : ∀ w : Word κ, ofText w.text = w ↔ ∀ s ∈ words, w ≠ .other s

/-- Whatever meanings a vocabulary has, it keeps every text. -/
theorem keepsTexts (all : List κ) (hall : ∀ k, k ∈ all) :
    KeepsTexts κ (all.map Vocabulary.word) where
  known_iff s := by simp [ofText_eq_known_iff, find?_eq_some_iff, hall]
  text_ofText := text_ofText
  injective := Function.LeftInverse.injective text_ofText
  toString_eq := toString_eq_text
  ofText_text_iff w := by simp [ofText_text_eq_iff, hall]

/-- A reader that takes the known meaning of a text, and refuses a text that has none with itself. -/
structure TakesKnown (field : String) (read : String → Except DecodeError κ) : Prop where
  ok_iff : ∀ s k, read s = .ok k ↔ ofText s = .known k
  error_iff : ∀ s e, read s = .error e ↔ (∀ k : κ, ofText s ≠ .known k) ∧ e = .unknownWord field s

theorem takesKnown (field : String) :
    TakesKnown field (ofKnownText field : String → Except DecodeError κ) where
  ok_iff s k := by rw [ofKnownText_eq_ok_iff, ofText_eq_known_iff]
  error_iff s e := by
    simp only [ofKnownText_eq_error_iff, Option.eq_none_iff_forall_ne_some, ne_eq, ofText_eq_known_iff]

end Word

/-! ### Codes -/

/-- A code is that of its number, unless it holds a number of the table as if that were not known. -/
theorem ExitCode.ofNumber_number_eq_iff {code : ExitCode} :
    ofNumber code.number = code ↔ ∀ n, code = .other n → 32 < n := by
  rw [ofNumber_number, canonical_eq_iff]
  cases code with
  | other n =>
    constructor
    · rintro hn _ ⟨⟩
      exact hn
    · exact fun h => h n rfl
  | _ => exact ⟨fun _ _ => nofun, fun _ => trivial⟩

open Word (KeepsTexts TakesKnown)

/-- States, modes and uses keep every text, and codes keep every number. Who asks for a known state or
    mode gets the known meaning of the text, or an error that holds the text. -/
theorem vocabularies_keep_texts :
    (KeepsTexts Stage ["active", "waiting", "paused", "error", "completed", "removed"] ∧
        KeepsTexts FileMode ["single", "multi"] ∧ KeepsTexts Use ["used", "waiting"]) ∧
      (TakesKnown "status" Stage.ofText ∧ TakesKnown "bittorrent.mode" FileMode.ofText) ∧
      (∀ n : UInt32, (ExitCode.ofNumber n).number = n) ∧
      ∀ code : ExitCode, ExitCode.ofNumber code.number = code ↔ ∀ n, code = .other n → 32 < n := by
  refine ⟨⟨?stages, ?modes, ?uses⟩, ⟨Word.takesKnown "status", Word.takesKnown "bittorrent.mode"⟩,
    ExitCode.number_ofNumber, fun _ => ExitCode.ofNumber_number_eq_iff⟩
  case stages =>
    exact Word.keepsTexts [Stage.active, .waiting, .paused, .error, .completed, .removed] fun k => by
      cases k <;> decide
  case modes => exact Word.keepsTexts [FileMode.single, .multi] fun k => by cases k <;> decide
  case uses => exact Word.keepsTexts [Use.used, .waiting] fun k => by cases k <;> decide

/-- A text with a capital letter is none of the words, and is kept. -/
example : (Word.ofText "Active" : DownloadState) = .other "Active" ∧
    Stage.ofText "Active" = .error (.unknownWord "status" "Active") := by
  constructor <;> rfl

end DownloadReport

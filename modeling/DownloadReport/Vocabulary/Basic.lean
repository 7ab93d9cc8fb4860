import DownloadReport.DecodeError

/-! Open vocabularies. A report says some things by one word out of a few, and a newer server may use
    words that are not known here. Such a word is kept as it came, so that every text has a meaning, no
    two texts have the same one, and the text can be had back from it (`text_ofText`). Whoever wants
    the known words only is told of any other. -/

namespace DownloadReport

/-- A closed set of meanings, each with one word of its own. -/
class Vocabulary (κ : Type) where
  word : κ → String
  /-- The meaning that has a text for its word. -/
  ofWord? : String → Option κ
  /-- The name of a meaning. -/
  label : κ → String
  ofWord?_eq_some_iff : ∀ text k, ofWord? text = some k ↔ word k = text

/-- The meaning of a text: a known one, or the text itself. -/
inductive Word (κ : Type) where
  | known (k : κ)
  | other (raw : String)
  deriving DecidableEq, Repr

namespace Word

variable {κ : Type} [Vocabulary κ]

/-- The text of a meaning. -/
def text : Word κ → String
  | .known k => Vocabulary.word k
  | .other raw => raw

/-- A meaning turns into its text. One that is not known is the text already. -/
instance : ToString (Word κ) where
  toString
    | .other raw => raw
    | .known k => Vocabulary.word k

/-- The known meaning of a text. -/
def find? (text : String) : Option κ := Vocabulary.ofWord? text

/-- The meaning of a text. -/
def ofText (text : String) : Word κ :=
  match find? text with
  | some k => .known k
  | none => .other text

/-- The known meaning of the text of a field, or an error. -/
def ofKnownText (field text : String) : Except DecodeError κ :=
  match find? text with
  | some k => .ok k
  | none => .error (.unknownWord field text)

/-- Whether the text has no known meaning. -/
def isOther : Word κ → Bool
  | .known _ => false
  | .other _ => true

/-- The name of a meaning; a text that is not known is shown as such. -/
def label : Word κ → String
  | .known k => Vocabulary.label k
  | .other raw => "Unknown(" ++ Text.quoted raw ++ ")"

/-- A known word is found. -/
theorem find?_word (k : κ) : find? (Vocabulary.word k) = some k :=
  (Vocabulary.ofWord?_eq_some_iff _ _).2 rfl

/-- What is found has the word that was looked for. -/
theorem word_of_find? {text : String} {k : κ} (h : find? text = some k) :
    Vocabulary.word k = text :=
  (Vocabulary.ofWord?_eq_some_iff _ _).1 h

/-- The text can be had back from its meaning. -/
@[simp] theorem text_ofText (s : String) : (ofText s : Word κ).text = s := by
  unfold ofText
  split
  next k h => exact word_of_find? h
  next => rfl

end Word

end DownloadReport

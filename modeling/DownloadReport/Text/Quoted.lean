import DownloadReport.Text.Unprintable

/-! Texts shown between quotation marks. The mark itself and the backslash are written after a
    backslash, NUL, tab, line feed and carriage return by a letter, and every other character without
    a visible form by its number in hexadecimal. What is written therefore never holds a control
    character, whatever the text holds (`not_control_of_mem_quoted`). -/

namespace DownloadReport.Text

/-- A code point by number: a backslash, `u`, and the lower-case hexadecimal digits in braces. -/
def numbered (c : Char) : List Char :=
  ['\\', 'u', '\x7b'] ++ Nat.toDigits 16 c.toNat ++ ['\x7d']

/-- How a character is written between two `mark`s. -/
def escape (mark c : Char) : List Char :=
  if c = '\x00' then ['\\', '0']
  else if c = '\t' then ['\\', 't']
  else if c = '\n' then ['\\', 'n']
  else if c = '\r' then ['\\', 'r']
  else if c = '\\' ∨ c = mark then ['\\', c]
  else if isUnprintable c then numbered c
  else [c]

/-- A text between double quotation marks. -/
def quoted (s : String) : String :=
  String.ofList (['"'] ++ s.toList.flatMap (escape '"') ++ ['"'])

/-- A single character between apostrophes. -/
def quotedChar (c : Char) : String :=
  String.ofList (['\''] ++ escape '\'' c ++ ['\''])

/-! ### Controls -/

/-- What can be printed is no control. -/
theorem not_control_of_printable {c : Char} (h : isUnprintable c = false) : ¬IsControl c :=
  fun hc => by simp [unprintable_of_control hc] at h

/-- Hexadecimal digits are no controls. -/
theorem not_control_digitChar : ∀ d : Fin 16, ¬IsControl (Nat.digitChar d) := by decide

/-- Nor are the digits of a number. -/
theorem not_control_of_mem_toDigits {c : Char} (n : Nat) (h : c ∈ Nat.toDigits 16 n) :
    ¬IsControl c := by
  induction n using Nat.strongRecOn with
  | ind n ih =>
    by_cases hn : n < 16
    · rw [Nat.toDigits_of_lt_base hn, List.mem_singleton] at h
      exact h ▸ not_control_digitChar ⟨n, hn⟩
    · rw [Nat.toDigits_of_base_le (by decide) (by omega), List.mem_append] at h
      rcases h with h | h
      · exact ih (n / 16) (by omega) h
      · rw [List.mem_singleton.1 h]
        exact not_control_digitChar ⟨n % 16, Nat.mod_lt _ (by decide)⟩

/-- Nor is a backslash with what follows it. -/
theorem not_control_of_mem_escaped {c x : Char} (hc : ¬IsControl c) (h : x ∈ ['\\', c]) :
    ¬IsControl x := by
  rcases List.mem_cons.1 h with rfl | h
  · decide
  · rwa [List.mem_singleton.1 h]

/-- No character is written as a control. -/
theorem not_control_of_mem_escape {mark c x : Char} (hmark : ¬IsControl mark)
    (h : x ∈ escape mark c) : ¬IsControl x := by
  unfold escape at h
  split at h
  · exact not_control_of_mem_escaped (by decide) h
  split at h
  · exact not_control_of_mem_escaped (by decide) h
  split at h
  · exact not_control_of_mem_escaped (by decide) h
  split at h
  · exact not_control_of_mem_escaped (by decide) h
  split at h
  next hc =>
    refine not_control_of_mem_escaped ?_ h
    rcases hc with rfl | rfl
    · decide
    · exact hmark
  split at h
  · simp only [numbered, List.mem_append, List.mem_cons, List.not_mem_nil, or_false] at h
    rcases h with ((rfl | rfl | rfl) | h) | rfl
    · decide
    · decide
    · decide
    · exact not_control_of_mem_toDigits _ h
    · decide
  next hp =>
    rw [List.mem_singleton.1 h]
    exact not_control_of_printable (by simpa using hp)

/-- A quoted text holds no control. -/
theorem not_control_of_mem_quoted {s : String} {x : Char} (h : x ∈ (quoted s).toList) :
    ¬IsControl x := by
  have hmark : ¬IsControl '"' := by decide
  simp only [quoted, String.toList_ofList, List.mem_append, List.mem_flatMap,
    List.mem_singleton] at h
  rcases h with (rfl | ⟨c, _, h⟩) | rfl
  · exact hmark
  · exact not_control_of_mem_escape hmark h
  · exact hmark

/-- A quoted character holds none either. -/
theorem not_control_of_mem_quotedChar {c x : Char} (h : x ∈ (quotedChar c).toList) :
    ¬IsControl x := by
  have hmark : ¬IsControl '\'' := by decide
  simp only [quotedChar, String.toList_ofList, List.mem_append, List.mem_singleton] at h
  rcases h with (rfl | h) | rfl
  · exact hmark
  · exact not_control_of_mem_escape hmark h
  · exact hmark

end DownloadReport.Text

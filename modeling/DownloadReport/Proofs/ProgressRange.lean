import DownloadReport.Proofs.RoundTrip
import Mathlib.Algebra.Order.Field.Basic
import Mathlib.Algebra.Order.Field.Rat
import Mathlib.Tactic.NormNum
import Mathlib.Tactic.Positivity

/-! How far progress goes, as an exact fraction. What is done of a download never counts for more than
    all of it, whatever the server reports. What is done of a file is taken as it is reported, so the
    fraction is above one just when more bytes are reported as complete than the file has; and any two
    counters can be reported (`progress_in_range`). -/

namespace DownloadReport

namespace Progress

/-- The quotient of two counters. -/
def ratio (done total : UInt64) : ℚ := done.toNat / total.toNat

/-- The exact fraction that a progress stands for. -/
def fraction (p : Progress) : ℚ := ratio p.done p.total

variable {done total : UInt64}

theorem ratio_nonneg : 0 ≤ ratio done total := by
  unfold ratio
  positivity

theorem total_cast_pos (h : 0 < total) : (0 : ℚ) < total.toNat :=
  Nat.cast_pos.2 (UInt64.lt_iff_toNat_lt.1 h)

theorem ratio_le_one_iff (h : 0 < total) : ratio done total ≤ 1 ↔ done ≤ total := by
  rw [ratio, div_le_one (total_cast_pos h), Nat.cast_le, UInt64.le_iff_toNat_le]

/-- To count no more than all of a total is to cut the fraction off at one. -/
theorem ratio_min (h : 0 < total) : ratio (min done total) total = min (ratio done total) 1 := by
  by_cases hle : done ≤ total
  · have hmin : min done total = done := if_pos hle
    rw [hmin, min_eq_left ((ratio_le_one_iff h).2 hle)]
  · have hmin : min done total = total := if_neg hle
    have hone : 1 ≤ ratio done total := (not_le.1 fun hr => hle ((ratio_le_one_iff h).1 hr)).le
    rw [hmin, min_eq_right hone, ratio, div_self (total_cast_pos h).ne']

theorem of?_eq_none_iff : of? done total = none ↔ total = 0 := by
  simp [of?]

theorem mem_of?_iff {p : Progress} : p ∈ of? done total ↔ p.done = done ∧ p.total = total := by
  unfold of?
  split
  next h =>
    rw [Option.mem_some_iff]
    constructor
    · rintro rfl
      exact ⟨rfl, rfl⟩
    · obtain ⟨_, _, _⟩ := p
      rintro ⟨rfl, rfl⟩
      rfl
  next h =>
    constructor
    · exact nofun
    · rintro ⟨_, rfl⟩
      exact absurd p.total_pos h

theorem fraction_of_mem {p : Progress} (h : p ∈ of? done total) :
    0 < total ∧ p.fraction = ratio done total := by
  obtain ⟨rfl, rfl⟩ := mem_of?_iff.1 h
  exact ⟨p.total_pos, rfl⟩

end Progress

open Progress (ratio)

/-- A download that holds nothing unknown is decoded from its own text. -/
theorem Download.ofJson_toJson {d : Download} (hd : d.IsCanonical) :
    (ofJson d.toJson).outcome = .ok d := by
  have hread : Shapes.rawDownload.readText d.toJson = .ok d.toRaw :=
    (takesBack_toValue 122 d).readText Shapes.wellKeyed_rawDownload Json.Style.isBlank_compact
  rw [outcome_ofJson, hread]
  show (ofRaw d.toRaw).outcome = .ok d
  rw [ofRaw_toRaw, canonical_eq_iff.2 hd]

/-- The progress of a download is not known when its total is zero, and otherwise the quotient of its
    counters or one, whichever is less. The progress of a file is not known when its length is zero,
    and otherwise the quotient of its counters, which is at most one just when no more bytes are
    complete than it has. No two counters are ruled out: for any there is a text of which a download
    with such a file is decoded. -/
theorem progress_in_range (d : Download) (f : FileEntry) :
    ((d.progress = none ↔ d.totalLength = 0) ∧
        ∀ p ∈ d.progress, p.fraction = min (ratio d.completedLength d.totalLength) 1 ∧
          0 ≤ p.fraction ∧ p.fraction ≤ 1) ∧
      ((f.progress = none ↔ f.length = 0) ∧
        ∀ p ∈ f.progress, p.fraction = ratio f.completedLength f.length ∧ 0 ≤ p.fraction ∧
          (p.fraction ≤ 1 ↔ f.completedLength ≤ f.length)) ∧
      ∀ done total : UInt64, ∃ (text : String) (d : Download) (f : FileEntry),
        (Download.ofJson text).outcome = .ok d ∧ f ∈ d.files ∧ f.completedLength = done ∧
          f.length = total := by
  refine ⟨⟨Progress.of?_eq_none_iff, fun p hp => ?_⟩, ⟨Progress.of?_eq_none_iff, fun p hp => ?_⟩,
    fun done total => ?_⟩
  · obtain ⟨hpos, hfraction⟩ := Progress.fraction_of_mem hp
    rw [hfraction, Progress.ratio_min hpos]
    exact ⟨rfl, le_min Progress.ratio_nonneg zero_le_one, min_le_right _ _⟩
  · obtain ⟨hpos, hfraction⟩ := Progress.fraction_of_mem hp
    rw [hfraction]
    exact ⟨rfl, Progress.ratio_nonneg, Progress.ratio_le_one_iff hpos⟩
  · have hd : Download.IsCanonical { files := [{ completedLength := done, length := total }] } :=
      Download.canonical_eq_iff.1 rfl
    exact ⟨_, _, _, Download.ofJson_toJson hd, List.mem_cons_self, rfl, rfl⟩

/-- A download of which more is reported than there is, with a file that is half there. -/
theorem progress_in_range_overfull :
    (∃ p ∈ ({ completedLength := 9, totalLength := 6 } : Download).progress, p.fraction = 1) ∧
      ∃ p ∈ ({ completedLength := 2, length := 4 } : FileEntry).progress,
        p.fraction = 1 / 2 ∧ p.fraction ≤ 1 := by
  obtain ⟨⟨_, hdownload⟩, ⟨_, hfile⟩, _⟩ :=
    progress_in_range { completedLength := 9, totalLength := 6 } { completedLength := 2, length := 4 }
  have hd : (⟨6, 6, by decide⟩ : Progress) ∈
      ({ completedLength := 9, totalLength := 6 } : Download).progress := rfl
  have hf : (⟨2, 4, by decide⟩ : Progress) ∈
      ({ completedLength := 2, length := 4 } : FileEntry).progress := rfl
  obtain ⟨hone, _, _⟩ := hdownload _ hd
  obtain ⟨hhalf, _, hle⟩ := hfile _ hf
  refine ⟨⟨_, hd, hone.trans ?_⟩, _, hf, hhalf.trans ?_, hle.2 (by decide)⟩
  · show min (((9 : ℕ) : ℚ) / (6 : ℕ)) 1 = 1
    norm_num
  · show ((2 : ℕ) : ℚ) / (4 : ℕ) = 1 / 2
    norm_num

/-- Of a file of one byte two are reported as complete, and its progress is two. -/
theorem file_progress_beyond_length :
    (Download.ofJson
        "\x7b\"files\": [\x7b\"length\": \"1\", \"completedLength\": \"2\"\x7d]\x7d").outcome =
        .ok { files := [{ completedLength := 2, length := 1 }] } ∧
      ∃ p ∈ ({ completedLength := 2, length := 1 } : FileEntry).progress,
        p.fraction = 2 ∧ ¬p.fraction ≤ 1 := by
  have hread : Shapes.rawDownload.readText
      "\x7b\"files\": [\x7b\"length\": \"1\", \"completedLength\": \"2\"\x7d]\x7d" =
      .ok { files := some [{ length := some "1", completedLength := some "2" }] } := by cbv
  refine ⟨?_, ⟨2, 1, by decide⟩, rfl, ?_⟩
  · rw [outcome_ofJson, hread]
    rfl
  show ((2 : ℕ) : ℚ) / (1 : ℕ) = 2 ∧ ¬((2 : ℕ) : ℚ) / (1 : ℕ) ≤ 1
  norm_num

end DownloadReport

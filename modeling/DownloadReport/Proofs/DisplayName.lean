import DownloadReport.Summary
import Mathlib.Data.List.Basic
import Mathlib.Order.Nat

/-! The name that a download is shown under. It is that of the torrent, or else of the first file, or
    else the first address of that file. The name of a file is the last component of its path; where it
    stands in the path is said without taking the path apart (`FileEntry.IsFileName`). A summary
    abbreviates the name to the width of its column, which is wide enough for the dots that stand for
    the rest; a limit below three is not (`Text.abbreviate_at_limits`). -/

namespace DownloadReport

namespace FileEntry

/-! ### Paths -/

/-- What stands between the slashes of a path. -/
def pieces (path : String) : List String := (path.toList.splitOn '/').map String.ofList

/-- Whether a piece leads anywhere; an empty one and a dot do not. -/
def IsStep (piece : String) : Prop := piece ≠ "" ∧ piece ≠ "."

instance (piece : String) : Decidable (IsStep piece) := inferInstanceAs (Decidable (_ ∧ _))

/-- The components of a path: its pieces without those that are empty, and without those that are a dot
    but for a dot at the beginning. -/
def components (path : String) : List String :=
  ((pieces path).take 1).filter (· ≠ "") ++ ((pieces path).drop 1).filter IsStep

/-- What may follow the name of a file in its path: slashes, with nothing but single dots between. -/
inductive Idle : String → Prop where
  | nil : Idle ""
  | slash {s : String} (h : Idle s) : Idle ("/" ++ s)
  | dot {s : String} (h : Idle s) : Idle ("/." ++ s)

/-- The name of a file as it stands in the path: at the beginning or behind a slash, and with nothing
    behind it that leads anywhere. -/
structure IsFileName (path name : String) : Prop where
  isStep : IsStep name
  not_up : name ≠ ".."
  no_slash : '/' ∉ name.toList
  stands : ∃ front behind : String, path = front ++ name ++ behind ∧
    (front = "" ∨ ∃ dir, front = dir ++ "/") ∧ Idle behind

theorem pathParts_eq (path : String) : pathParts path = (pieces path).filter IsStep := rfl

theorem pieces_of_no_slash {s : String} (h : '/' ∉ s.toList) : pieces s = [s] := by
  rw [pieces, List.splitOn_eq_singleton h, List.map_singleton, String.ofList_toList]

theorem pieces_append (s t : String) : pieces (s ++ "/" ++ t) = pieces s ++ pieces t := by
  have hlist : (s ++ "/" ++ t).toList = s.toList ++ '/' :: t.toList := by
    rw [String.toList_append, String.toList_append, List.append_assoc]
    rfl
  rw [pieces, hlist, List.splitOn_append_cons_self, List.map_append]
  rfl

/-- A path is a single piece, or a path followed by a slash and a piece. -/
theorem path_induction {motive : String → Prop} (single : ∀ s, '/' ∉ s.toList → motive s)
    (step : ∀ dir s, '/' ∉ s.toList → motive dir → motive (dir ++ "/" ++ s)) (path : String) :
    motive path := by
  induction hlength : path.toList.length using Nat.strong_induction_on generalizing path with
  | _ length ih =>
    by_cases hslash : '/' ∈ path.toList
    · -- The last slash is the first one from behind.
      obtain ⟨s, dir, hsplit, hs⟩ := List.eq_append_cons_of_mem (List.mem_reverse.2 hslash)
      have hlist : path.toList = dir.reverse ++ '/' :: s.reverse := by
        rw [← List.reverse_reverse path.toList, hsplit]
        simp
      have hpath : path = String.ofList dir.reverse ++ "/" ++ String.ofList s.reverse := by
        rw [← String.toList_inj, hlist]
        simp
      have hless : dir.length < length := by
        rw [← hlength, hlist]
        simp
      rw [hpath]
      refine step _ _ (by simpa using hs) (ih dir.length hless _ ?_)
      simp
    · exact single path hslash

theorem pathParts_append (s t : String) : pathParts (s ++ "/" ++ t) = pathParts s ++ pathParts t := by
  rw [pathParts_eq, pieces_append, List.filter_append]
  rfl

theorem pathParts_of_no_slash {s : String} (h : '/' ∉ s.toList) :
    pathParts s = if IsStep s then [s] else [] := by
  rw [pathParts_eq, pieces_of_no_slash h, List.filter_singleton, Bool.cond_decide]

theorem isStep_of_mem_pathParts {path part : String} (h : part ∈ pathParts path) : IsStep part := by
  rw [pathParts_eq] at h
  exact of_decide_eq_true (List.mem_filter.1 h).2

/-- The components are the parts that lead anywhere, perhaps behind a dot. -/
theorem components_cases (path : String) :
    components path = pathParts path ∨ components path = "." :: pathParts path := by
  cases hpieces : pieces path with
  | nil => simp [components, pathParts_eq, hpieces]
  | cons first rest =>
    rw [components, pathParts_eq, hpieces, List.take_one, List.drop_one, List.head?_cons,
      List.tail_cons, Option.toList_some, List.filter_singleton, Bool.cond_decide, List.filter_cons]
    by_cases hdot : first = "."
    · right
      simp [hdot, IsStep]
    · left
      by_cases hempty : first = ""
      · simp [hempty, IsStep]
      · simp [hdot, hempty, IsStep]

/-! ### Names of files -/

theorem fileName_eq_some_iff {f : FileEntry} {name : String} :
    f.fileName = some name ↔ (pathParts f.path).getLast? = some name ∧ name ≠ ".." := by
  rw [fileName, Option.filter_eq_some_iff, decide_eq_true_eq]

theorem Idle.append {s t : String} (hs : Idle s) (ht : Idle t) : Idle (s ++ t) := by
  induction hs with
  | nil => simpa using ht
  | slash _ ih =>
    rw [String.append_assoc]
    exact .slash ih
  | dot _ ih =>
    rw [String.append_assoc]
    exact .dot ih

/-- What is idle leads nowhere. -/
theorem Idle.pathParts_append {behind : String} (h : Idle behind) (s : String) :
    pathParts (s ++ behind) = pathParts s := by
  induction h generalizing s with
  | nil => rw [String.append_empty]
  | @slash b _ ih =>
    have hnone := ih ""
    rw [String.empty_append] at hnone
    rw [← String.append_assoc, FileEntry.pathParts_append, hnone]
    exact List.append_nil _
  | @dot b _ ih =>
    have hassoc : s ++ ("/." ++ b) = s ++ "/" ++ ("." ++ b) := by
      rw [← String.toList_inj]
      simp
    rw [hassoc, FileEntry.pathParts_append, ih "."]
    exact List.append_nil _

/-- Where the name stands is where the last part of the path is found. -/
theorem getLast?_pathParts_iff {path name : String} :
    ((pathParts path).getLast? = some name ∧ name ≠ "..") ↔ IsFileName path name := by
  constructor
  · rintro ⟨hlast, hup⟩
    induction path using path_induction with
    | single s hs =>
      rw [pathParts_of_no_slash hs] at hlast
      split at hlast
      next hstep =>
        obtain rfl : s = name := Option.some.inj hlast
        refine ⟨hstep, hup, hs, "", "", ?_, .inl rfl, .nil⟩
        rw [String.empty_append, String.append_empty]
      next => exact nomatch hlast
    | step dir s hs ih =>
      rw [pathParts_append, pathParts_of_no_slash hs] at hlast
      split at hlast
      next hstep =>
        rw [List.getLast?_concat] at hlast
        obtain rfl : s = name := Option.some.inj hlast
        refine ⟨hstep, hup, hs, dir ++ "/", "", ?_, .inr ⟨dir, rfl⟩, .nil⟩
        rw [String.append_empty]
      next hstep =>
        rw [List.append_nil] at hlast
        obtain ⟨hname, hup, hslash, front, behind, rfl, hfront, hbehind⟩ := ih hlast
        have hidle : Idle ("/" ++ s) := by
          rcases not_and_or.1 hstep with hempty | hdot
          · rw [not_not.1 hempty]
            exact .slash .nil
          · rw [not_not.1 hdot]
            exact .dot .nil
        refine ⟨hname, hup, hslash, front, behind ++ ("/" ++ s), ?_, hfront, hbehind.append hidle⟩
        simp only [String.append_assoc]
  · rintro ⟨hstep, hup, hslash, front, behind, rfl, hfront, hbehind⟩
    refine ⟨?_, hup⟩
    rw [hbehind.pathParts_append]
    rcases hfront with rfl | ⟨dir, rfl⟩
    · rw [String.empty_append, pathParts_of_no_slash hslash, if_pos hstep]
      rfl
    · rw [pathParts_append, pathParts_of_no_slash hslash, if_pos hstep, List.getLast?_concat]

theorem fileName_iff_isFileName {f : FileEntry} {name : String} :
    f.fileName = some name ↔ IsFileName f.path name :=
  fileName_eq_some_iff.trans getLast?_pathParts_iff

/-- The name is the last component, if that leads anywhere but upwards. -/
theorem fileName_iff_component {f : FileEntry} {name : String} :
    f.fileName = some name ↔ (components f.path).getLast? = some name ∧ name ≠ ".." ∧
      components f.path ≠ ["."] := by
  rw [fileName_eq_some_iff]
  rcases components_cases f.path with hparts | hparts
  · have hdot : pathParts f.path ≠ ["."] := by
      intro h
      have hstep : IsStep "." := isStep_of_mem_pathParts (h ▸ List.mem_singleton_self ".")
      exact hstep.2 rfl
    rw [hparts]
    exact ⟨fun h => ⟨h.1, h.2, hdot⟩, fun h => ⟨h.1, h.2.1⟩⟩
  · rw [hparts]
    cases pathParts f.path with
    | nil => simp
    | cons part parts => simp [List.getLast?_cons_cons]

theorem fileName_eq_none_iff {f : FileEntry} :
    f.fileName = none ↔ components f.path = [] ∨ (components f.path).getLast? = some ".." ∨
      components f.path = ["."] := by
  constructor
  · intro hnone
    cases hlast : (components f.path).getLast? with
    | none => exact .inl (List.getLast?_eq_none_iff.1 hlast)
    | some name =>
      by_cases hup : name = ".."
      · exact .inr (.inl (by rw [hup]))
      · refine .inr (.inr ?_)
        by_contra hdot
        cases hnone.symm.trans (fileName_iff_component.2 ⟨hlast, hup, hdot⟩)
  · intro h
    rw [Option.eq_none_iff_forall_ne_some]
    intro name hname
    obtain ⟨hlast, hup, hdot⟩ := fileName_iff_component.1 hname
    rcases h with hempty | hlast' | hdot'
    · rw [hempty] at hlast
      exact nomatch hlast
    · exact hup (Option.some.inj (hlast.symm.trans hlast'))
    · exact hdot hdot'

end FileEntry

/-! ### Names of downloads -/

open FileEntry (components IsFileName)

namespace Download

/-- The name that the torrent gives itself, which is not empty. -/
def TorrentNamed (d : Download) (name : String) : Prop :=
  name ≠ "" ∧ ∃ torrent info, d.torrent = some torrent ∧ torrent.info = some info ∧ info.name = name

/-- The name that a download is shown under. Files behind the first one have no say in it. -/
inductive ShownAs (d : Download) : String → Prop where
  | torrent {name : String} (h : d.TorrentNamed name) : ShownAs d name
  | file {f : FileEntry} {name : String} (hno : ∀ name, ¬d.TorrentNamed name)
      (hf : d.files.head? = some f) (hname : IsFileName f.path name) : ShownAs d name
  | address {f : FileEntry} {u : Uri} (hno : ∀ name, ¬d.TorrentNamed name)
      (hf : d.files.head? = some f) (hpath : ∀ name, ¬IsFileName f.path name)
      (hu : f.uris.head? = some u) : ShownAs d u.uri

theorem torrentName_iff {d : Download} {name : String} :
    d.torrent.bind Torrent.name = some name ↔ d.TorrentNamed name := by
  simp only [TorrentNamed, Torrent.name, Option.bind_eq_some_iff, Option.filter_eq_some_iff,
    Option.map_eq_some_iff, decide_eq_true_eq]
  constructor
  · rintro ⟨torrent, ht, ⟨info, hi, hname⟩, hne⟩
    exact ⟨hne, torrent, info, ht, hi, hname⟩
  · rintro ⟨hne, torrent, info, ht, hi, hname⟩
    exact ⟨torrent, ht, ⟨info, hi, hname⟩, hne⟩

theorem name_iff_shownAs {d : Download} {name : String} : d.name = some name ↔ d.ShownAs name := by
  constructor
  · intro h
    rcases Option.or_eq_some_iff.1 h with htorrent | ⟨hnone, hfile⟩
    · exact .torrent (torrentName_iff.1 htorrent)
    · have hno : ∀ name, ¬d.TorrentNamed name := by
        intro name hname
        cases hnone.symm.trans (torrentName_iff.2 hname)
      obtain ⟨f, hf, hshown⟩ := Option.bind_eq_some_iff.1 hfile
      rcases Option.or_eq_some_iff.1 hshown with hname | ⟨hnone, haddress⟩
      · exact .file hno hf (FileEntry.fileName_iff_isFileName.1 hname)
      · obtain ⟨u, hu, rfl⟩ := Option.map_eq_some_iff.1 haddress
        refine .address hno hf (fun name hname => ?_) hu
        cases hnone.symm.trans (FileEntry.fileName_iff_isFileName.2 hname)
  · have hnone : (∀ name, ¬d.TorrentNamed name) → d.torrent.bind Torrent.name = none := by
      intro hno
      rw [Option.eq_none_iff_forall_ne_some]
      exact fun name hname => hno name (torrentName_iff.1 hname)
    intro h
    unfold Download.name
    cases h with
    | torrent h => rw [torrentName_iff.2 h, Option.some_or]
    | file hno hf hname =>
      rw [hnone hno, Option.none_or, hf, Option.bind_some,
        FileEntry.fileName_iff_isFileName.2 hname, Option.some_or]
    | @address f u hno hf hpath hu =>
      have hfile : f.fileName = none := by
        rw [Option.eq_none_iff_forall_ne_some]
        exact fun name hname => hpath name (FileEntry.fileName_iff_isFileName.1 hname)
      rw [hnone hno, Option.none_or, hf, Option.bind_some, hfile, Option.none_or, hu]
      rfl

end Download

/-- A download is shown under the name of the torrent if that is not empty, else under the name of the
    first file if its path has one, else under the first address of that file, else under none. A file
    has no name just when the path has no components, or when the last one leads upwards or is the dot
    at the beginning. Otherwise the last component is the name: it is neither empty nor a dot nor two
    dots, holds no slash, and stands in the path at the beginning or right behind a slash, with nothing
    behind it but slashes and single dots between them. -/
theorem display_name :
    (∀ (d : Download) (name : String), d.name = some name ↔ d.ShownAs name) ∧
      ∀ f : FileEntry,
        (f.fileName = none ↔ components f.path = [] ∨ (components f.path).getLast? = some ".." ∨
          components f.path = ["."]) ∧
        ∀ name : String,
          (f.fileName = some name ↔ (components f.path).getLast? = some name ∧ name ≠ ".." ∧
            components f.path ≠ ["."]) ∧
          (f.fileName = some name ↔ IsFileName f.path name) :=
  ⟨fun _ _ => Download.name_iff_shownAs, fun _ => ⟨FileEntry.fileName_eq_none_iff,
    fun _ => ⟨FileEntry.fileName_iff_component, FileEntry.fileName_iff_isFileName⟩⟩⟩

/-- An empty name of the torrent does not count, and neither does what stands behind the name of the
    file. -/
example :
    ({ torrent := some { info := some { name := "" } }
       files := [{ path := "./a/../b//./" }, { path := "c" }] } : Download).name = some "b" := by
  decide

/-! ### Abbreviation -/

namespace Text

variable {limit : Nat} {s : String}

theorem abbreviate_of_le (h : s.toList.length ≤ limit) : abbreviate limit s = s := if_pos h

theorem toList_abbreviate (h : limit < s.toList.length) :
    (abbreviate limit s).toList = s.toList.take (limit - 3) ++ ['.', '.', '.'] := by
  rw [abbreviate, if_neg (not_le.2 h), String.toList_ofList]

/-- What is left of a longer text has the three dots, and more only if there is room for it. -/
theorem length_abbreviate (h : limit < s.toList.length) :
    (abbreviate limit s).toList.length = max limit 3 := by
  rw [toList_abbreviate h, List.length_append, List.length_take]
  simp only [List.length_cons, List.length_nil]
  omega

theorem length_abbreviate_le_iff :
    (abbreviate limit s).toList.length ≤ limit ↔ s.toList.length ≤ limit ∨ 3 ≤ limit := by
  rcases le_or_gt s.toList.length limit with hshort | hlong
  · rw [abbreviate_of_le hshort]
    exact iff_of_true hshort (.inl hshort)
  · rw [length_abbreviate hlong]
    omega

/-- A text that is no longer than the limit is kept. Of a longer one, a limit of three or more is met
    exactly, by the beginning and three dots, and the text has changed. A limit below three is not met:
    there is no room for the dots, and the dots are all that is left. -/
theorem abbreviate_at_limits (limit : Nat) (s : String) :
    (s.toList.length ≤ limit → abbreviate limit s = s) ∧
      (limit < s.toList.length → 3 ≤ limit →
        (abbreviate limit s).toList = s.toList.take (limit - 3) ++ ['.', '.', '.'] ∧
          (abbreviate limit s).toList.length = limit ∧ abbreviate limit s ≠ s) ∧
      (limit < s.toList.length → limit < 3 → abbreviate limit s = "...") ∧
      ((abbreviate limit s).toList.length ≤ limit ↔ s.toList.length ≤ limit ∨ 3 ≤ limit) := by
  refine ⟨abbreviate_of_le, fun hlong hroom => ?_, fun hlong hlimit => ?_, length_abbreviate_le_iff⟩
  · have hlength : (abbreviate limit s).toList.length = limit := by
      rw [length_abbreviate hlong, max_eq_left hroom]
    refine ⟨toList_abbreviate hlong, hlength, fun heq => ?_⟩
    rw [heq] at hlength
    omega
  · have hzero : limit - 3 = 0 := by omega
    rw [← String.toList_inj, toList_abbreviate hlong, hzero, List.take_zero]
    rfl

/-- Five characters of a text whose characters take more than one byte each. -/
theorem abbreviate_at_limits_five :
    (abbreviate 5 "éèêëāăą").toList = "éè...".toList ∧ (abbreviate 5 "éèêëāăą").toList.length = 5 ∧
      abbreviate 5 "éèêëāăą" ≠ "éèêëāăą" ∧ abbreviate 2 "éèê" = "..." ∧
      abbreviate 7 "éèê" = "éèê" := by
  obtain ⟨_, hlong, _⟩ := abbreviate_at_limits 5 "éèêëāăą"
  obtain ⟨hlist, hlength, hne⟩ := hlong (by decide) (by decide)
  exact ⟨hlist, hlength, hne, (abbreviate_at_limits 2 "éèê").2.2.1 (by decide) (by decide),
    (abbreviate_at_limits 7 "éèê").1 (by decide)⟩

/-- One character is cut to three where there should be none. -/
theorem abbreviate_beyond_limit :
    abbreviate 0 "a" = "..." ∧ ¬(abbreviate 0 "a").toList.length ≤ 0 := by
  decide

end Text

end DownloadReport

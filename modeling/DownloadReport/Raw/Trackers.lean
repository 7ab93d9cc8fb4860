import DownloadReport.Json.Value
import DownloadReport.Raw.Basic

/-! The trackers of a torrent. They come in tiers, and each tier is a list of addresses; but one address
    may stand in the place of a tier, or of all tiers. `toTiers_ofTiers` says that tiers can be had back
    from their regular form. -/

namespace DownloadReport

open Json (Value)

/-- The texts of a list of strings; `none` if anything else is among them. -/
def stringItems : List Value → Option (List String)
  | [] => some []
  | .string s :: rest => (stringItems rest).map (s :: ·)
  | _ :: _ => none

/-- A tier in either of its forms. -/
def AnnounceTier.ofValue? : Value → Option AnnounceTier
  | .array items => (stringItems items).map .uris
  | .string s => some (.flat s)
  | _ => none

/-- The trackers in either of their forms. -/
def AnnounceList.ofValue? : Value → Option AnnounceList
  | .array items => (items.mapM AnnounceTier.ofValue?).map .tiers
  | .string s => some (.flat s)
  | _ => none

/-- The addresses of a tier. -/
def AnnounceTier.toList : AnnounceTier → List String
  | .uris us => us
  | .flat u => [u]

/-- The tiers of a list of trackers; an address that stands for more is a tier of its own. -/
def AnnounceList.toTiers : AnnounceList → List (List String)
  | .tiers ts => ts.map AnnounceTier.toList
  | .flat u => [[u]]

/-- Tiers in the regular form. -/
def AnnounceList.ofTiers (ts : List (List String)) : AnnounceList :=
  .tiers (ts.map .uris)

/-- Tiers can be had back from their regular form. -/
@[simp] theorem AnnounceList.toTiers_ofTiers (ts : List (List String)) :
    (AnnounceList.ofTiers ts).toTiers = ts := by
  simp [toTiers, ofTiers, Function.comp_def, AnnounceTier.toList]

end DownloadReport

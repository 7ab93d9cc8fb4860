import DownloadReport.Decimal.Binary64
import DownloadReport.Decimal.Rounding
import DownloadReport.Download.Basic
import DownloadReport.Text.Column

/-! Downloads for a person to read: one line each, with the id, the state, how much is done, how fast it
    goes, the name, and the error if there is one. -/

namespace DownloadReport

/-! ### Sizes -/

/-- The units of sizes, each 1024 times the one before. -/
def sizeUnits : List String := ["B", "KiB", "MiB", "GiB", "TiB", "PiB", "EiB"]

/-- How often a size can be divided by 1024 without falling below 1, up to `limit` times. -/
def sizeScale : Nat → Nat → Nat
  | 0, _ => 0
  | limit + 1, size => if 1024 ≤ size then sizeScale limit (size / 1024) + 1 else 0

/-- The counter as it is held by a floating-point number. -/
def floatValue (n : UInt64) : Nat :=
  match Decimal.Binary64.ofFloat n.toFloat with
  | .finite _ mantissa exponent =>
    let (num, den) := Decimal.quotient mantissa exponent
    num / den
  | _ => n.toNat

/-- A size in the greatest unit that it reaches. It has two decimal places, or none if it is a whole
    number of units but for the last bit of a floating-point number. -/
def sizeText (n : UInt64) : String :=
  let size := floatValue n
  let scale := sizeScale 6 size
  let unit := Nat.pow 1024 scale
  let places := if size % unit * Decimal.leastFullMantissa ≤ unit then 0 else 2
  String.ofList (Decimal.fixed places size unit) ++ " " ++ (sizeUnits[scale]?).getD ""

/-! ### Percentages -/

/-- A share in percent with one decimal place; two dashes if there is none. -/
def percentText : Option Float → String
  | none => "--"
  | some p =>
    match Decimal.Binary64.ofFloat (p * 100) with
    | .notANumber => "NaN%"
    | .infinite negative => if negative then "-inf%" else "inf%"
    | .finite negative mantissa exponent =>
      let (num, den) := Decimal.quotient mantissa exponent
      (if negative then "-" else "") ++ String.ofList (Decimal.fixed 1 num den) ++ "%"

/-! ### Lines -/

/-- How many characters of a name are shown. -/
def nameWidth : Nat := 48

/-- The error of a download in brackets, or nothing. -/
def errorNote (d : Download) : String :=
  if d.hasError then
    "  [" ++ d.exitCode.text ++ (if d.errorMessage = "" then "" else ": " ++ d.errorMessage) ++ "]"
  else ""

/-- One download on one line. -/
def summaryLine (d : Download) : String :=
  String.join
    [ Text.fillTo .left ' ' 16 d.gid, "  ",
      Text.fillTo .left ' ' 9 d.state.text, "  ",
      Text.fillTo .right ' ' 6 (percentText (d.progress.map Progress.toFloat)), "  ",
      sizeText d.completedLength, " / ",
      if d.totalLength = 0 then "?" else sizeText d.totalLength,
      "  down ", sizeText d.downloadSpeed, "/s  up ", sizeText d.uploadSpeed, "/s  ",
      Text.abbreviate nameWidth (d.name.getD "-"), errorNote d ]

/-- A line for each download, or a word on there being none. -/
def summary : List Download → String
  | [] => "No downloads."
  | ds => "\n".intercalate (ds.map summaryLine)

end DownloadReport

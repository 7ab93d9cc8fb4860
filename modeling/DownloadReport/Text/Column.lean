/-! Text laid out in columns: filled up to a width on one side or on both, cut to a width, or
    abbreviated. All widths count characters, not bytes. -/

namespace DownloadReport.Text

/-- Where a text stands in a column that is wider than it. -/
inductive Alignment where
  | left
  | right
  | centre
  deriving DecidableEq, Repr

/-- How many of `spare` filling characters stand before the text; a centred text leans to the left. -/
def Alignment.before : Alignment → Nat → Nat
  | .left, _ => 0
  | .right, spare => spare
  | .centre, spare => spare / 2

/-- The text filled up to `width` characters with `fill`; a text that is already as wide is kept. -/
def fillTo (align : Alignment) (fill : Char) (width : Nat) (s : String) : String :=
  let spare := width - s.toList.length
  let before := align.before spare
  String.ofList (List.replicate before fill ++ s.toList ++ List.replicate (spare - before) fill)

/-- The first `width` characters of a text. -/
def cutTo (width : Nat) (s : String) : String :=
  String.ofList (s.toList.take width)

/-- A text of at most `limit` characters as it is; of a longer one, a beginning that leaves room for
    three dots, and the dots. -/
def abbreviate (limit : Nat) (s : String) : String :=
  if s.toList.length ≤ limit then s
  else String.ofList (s.toList.take (limit - 3) ++ ['.', '.', '.'])

end DownloadReport.Text

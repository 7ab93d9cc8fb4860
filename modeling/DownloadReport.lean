import DownloadReport.Main
import DownloadReport.Typed
import DownloadReport.Proofs.Spelling
import DownloadReport.Proofs.Grammar
import DownloadReport.Proofs.Scanning
import DownloadReport.Proofs.Record
import DownloadReport.Proofs.Denotation
import DownloadReport.Proofs.Agreement
import DownloadReport.Proofs.Payload
import DownloadReport.Proofs.Readers
import DownloadReport.Proofs.Written
import DownloadReport.Proofs.Printing
import DownloadReport.Proofs.Encoding
import DownloadReport.Proofs.Scalars
import DownloadReport.Proofs.Conversion
import DownloadReport.Proofs.Canonical
import DownloadReport.Proofs.RoundTrip
import DownloadReport.Proofs.ObjectText
import DownloadReport.Proofs.Envelope
import DownloadReport.Proofs.Listing
import DownloadReport.Proofs.TypedReply
import DownloadReport.Proofs.Events
import DownloadReport.Proofs.Fieldwise
import DownloadReport.Proofs.Nesting
import DownloadReport.Proofs.ReportFields
import DownloadReport.Proofs.KeyFilter
import DownloadReport.Proofs.KeyOrder
import DownloadReport.Proofs.MemberOrder
import DownloadReport.Proofs.UnknownMembers
import DownloadReport.Proofs.ForwardCompatibility
import DownloadReport.Proofs.Failures
import DownloadReport.Proofs.SummaryLines
import DownloadReport.Proofs.Hexadecimal
import DownloadReport.Proofs.Pieces
import DownloadReport.Proofs.PieceMapText
import DownloadReport.Proofs.Numerals
import DownloadReport.Proofs.NormalForm
import DownloadReport.Proofs.Refusals
import DownloadReport.Proofs.IntegerText
import DownloadReport.Proofs.WholeSeconds
import DownloadReport.Proofs.OrderedValues
import DownloadReport.Proofs.TrackerTiers
import DownloadReport.Proofs.ReplyRoundTrip
import DownloadReport.Proofs.WellFormed
import DownloadReport.Proofs.ReportContainer
import DownloadReport.Proofs.CalendarDays
import DownloadReport.Proofs.Diagnostics
import DownloadReport.Proofs.Timestamps
import DownloadReport.Proofs.DisplayName
import DownloadReport.Proofs.ProgressRange
import DownloadReport.Proofs.InfoReadings
import DownloadReport.Proofs.Counters
import DownloadReport.Proofs.OpenVocabularies

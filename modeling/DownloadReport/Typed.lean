import DownloadReport.Download.Decoding
import DownloadReport.Download.Encoding
import DownloadReport.Reply

/-! Typed parts of a report, read and written each by itself. What the decoding of a part refuses is
    refused where it stands in the text. -/

namespace DownloadReport

open Json (Value Shape Fields)

namespace Shapes

/-- What a decoding makes of what was read; its events are not wanted. -/
def decoded {α β : Type} (s : Shape α) (decode : α → Decoding β) : Shape β :=
  .refine s fun raw => (decode raw).outcome.mapError DecodeError.message

def download : Shape Download := decoded rawDownload Download.ofRaw

def fileEntry : Shape FileEntry := decoded rawFile FileEntry.ofRaw

def uri : Shape Uri := .refine rawUri fun raw => .ok (Uri.ofRaw raw)

def torrent : Shape Torrent := decoded rawTorrent Torrent.ofRaw

/-- What the torrent says of itself, read alone; here its name has to be there. -/
def torrentInfo : Shape TorrentInfo :=
  .record "BitTorrentInfo" <| Fields.build TorrentInfo.mk
    |>.field "name" .string none

/-- A word by itself is its text, and every text is one. -/
def word {κ : Type} [Vocabulary κ] : Shape (Word κ) := .refine .string fun s => .ok (.ofText s)

def pieceMap : Shape PieceMap :=
  .refine .string fun s => (Scalar.pieceMap (some s)).mapError DecodeError.message

def instant : Shape Instant :=
  .refine .signed fun n =>
    match Instant.ofSeconds? n.toInt with
    | some t => .ok t
    | none => .error (Scalar.outOfRange n.toInt)

end Shapes

def TorrentInfo.toValue (i : TorrentInfo) : Value := .object (textMember "name" i.name)

/-- An instant by itself is a number. -/
def Instant.toValue (t : Instant) : Value :=
  .number (.integer t.seconds (by
    have := t.inRange; unfold firstSecond lastSecond at this; omega))

def FileEntry.toValue (f : FileEntry) : Value := f.toRaw.toValue

def Uri.toValue (u : Uri) : Value := u.toRaw.toValue

def Torrent.toValue (t : Torrent) : Value := t.toRaw.toValue

/-- A piece map by itself is its hexadecimal text. -/
def PieceMap.toValue (m : PieceMap) : Value := .string m.toHex

/-- A word by itself is the text that it turns into. -/
def Word.toValue {κ : Type} [Vocabulary κ] (w : Word κ) : Value := .string (toString w)

end DownloadReport

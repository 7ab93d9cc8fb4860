import DownloadReport.Hex

/-! Which pieces of a download have been retrieved, which a report says in its `bitfield`. Piece 0 is the
    highest bit of the first byte. An empty map says that the download has not started, and never that
    all pieces are there. -/

namespace DownloadReport

structure PieceMap where
  bytes : List UInt8 := []
  deriving DecidableEq, Repr

namespace PieceMap

/-- Reads a map from its hexadecimal text. -/
def ofHex (text : String) : Except Hex.Error PieceMap := (Hex.decode text).map PieceMap.mk

/-- The map in lower-case hexadecimal. -/
def toHex (m : PieceMap) : String := Hex.encode m.bytes

/-- Whether no map exists yet. -/
def isEmpty (m : PieceMap) : Bool := m.bytes.isEmpty

/-- The bit of its byte at which a piece stands. -/
def mask (piece : Nat) : UInt8 := 0x80 >>> UInt8.ofNat (piece % 8)

/-- Whether a piece has been retrieved. -/
def has (m : PieceMap) (piece : Nat) : Bool :=
  (m.bytes[piece / 8]?).any fun byte => byte &&& mask piece != 0

/-- How many bits are set in a byte. -/
def setBits (byte : UInt8) : Nat := byte.toBitVec.cpop.toNat

/-- How many pieces have been retrieved. -/
def count (m : PieceMap) : Nat := m.bytes.foldl (fun n byte => n + setBits byte) 0

/-- Whether there are pieces and all of the first `n` have been retrieved. -/
def isComplete (m : PieceMap) (n : Nat) : Bool := decide (0 < n) && n.all fun piece _ => m.has piece

/-- The first `n` pieces one by one. -/
def pieces (m : PieceMap) (n : Nat) : List Bool := (List.range n).map m.has

end PieceMap

end DownloadReport

/-! Files by path. A path is followed part by part from the folder that one stands in; empty parts and
    dots stay where they are, two dots lead upwards, and nothing lies below a file. Only what lies in
    the folder and below is known. -/

namespace DownloadReport

/-- Why there is no content at a path. -/
inductive PathFault where
  | notFound
  | isFolder
  /-- The path goes on below a file. -/
  | notAFolder
  | nameTooLong
  | nulByte
  /-- Anything else, in the words of the system. -/
  | other (reason : String)
  deriving DecidableEq, Repr

/-- What the system says of a fault. -/
def PathFault.reason : PathFault → String
  | .notFound => "No such file or directory (os error 2)"
  | .isFolder => "Is a directory (os error 21)"
  | .notAFolder => "Not a directory (os error 20)"
  | .nameTooLong => "File name too long (os error 36)"
  | .nulByte => "file name contained an unexpected NUL byte"
  | .other reason => reason

/-- The files below a folder and the folders below it, each with the names that lead to it. A folder in
    which something lies need not be listed. -/
structure Folder where
  files : List (List String × List UInt8)
  folders : List (List String)

namespace Folder

/-- Where one stands while a path is followed. -/
inductive Position where
  /-- In a folder below this one, reached by these names; this one itself is reached by none. -/
  | within (names : List String)
  /-- At a file. -/
  | file (content : List UInt8)
  /-- In a folder so many levels above this one. -/
  | above (levels : Nat)

/-- The longest name of a file, in bytes. -/
def longestName : Nat := 255

/-- The longest path, in bytes. -/
def longestPath : Nat := 4095

/-- Whether these names lead to a folder: it is known as one, or something lies in it. -/
def hasFolder (f : Folder) (names : List String) : Bool :=
  f.folders.contains names || f.files.any fun file => names.isPrefixOf file.1

/-- Follows one part of a path. -/
def enter (f : Folder) (at_ : Position) (part : String) : Except PathFault Position :=
  match at_ with
  | .file _ => .error .notAFolder
  | .above levels =>
    if part = "" ∨ part = "." then .ok (.above levels)
    else if part = ".." then .ok (.above (levels + 1))
    else if longestName < part.utf8ByteSize then .error .nameTooLong
    else .error .notFound
  | .within names =>
    if part = "" ∨ part = "." then .ok (.within names)
    else if part = ".." then
      if names.isEmpty then .ok (.above 1) else .ok (.within names.dropLast)
    else if longestName < part.utf8ByteSize then .error .nameTooLong
    else
      let names := names ++ [part]
      match f.files.find? fun file => file.1 = names with
      | some file => .ok (.file file.2)
      | none => if f.hasFolder names then .ok (.within names) else .error .notFound

/-- The content of the file at a path. -/
def read (f : Folder) (path : String) : Except PathFault (List UInt8) :=
  if path.toList.contains '\x00' then .error .nulByte
  else if longestPath < path.utf8ByteSize then .error .nameTooLong
  else do
    let parts := (path.toList.splitOn '/').map String.ofList
    let start : Position := if path.toList.head? = some '/' then .above 1 else .within []
    match ← parts.foldlM f.enter start with
    | .file content => return content
    | .within _ | .above _ => .error .isFolder

end Folder

end DownloadReport

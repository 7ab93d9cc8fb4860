/-! The code of the last error of a download. Thirty-three codes are known, numbered from 0 in the order
    of `ExitCode.known`; every other code is kept as it is. -/

namespace DownloadReport

inductive ExitCode where
  | success
  | unknownError
  | timeout
  | resourceNotFound
  | maxFileNotFound
  | tooSlowDownloadSpeed
  | networkProblem
  | inProgress
  | remoteNoResume
  | notEnoughDiskSpace
  | pieceLengthChanged
  | duplicateDownload
  | duplicateInfoHash
  | fileAlreadyExists
  | fileRenamingFailed
  | fileOpenError
  | fileCreateError
  | fileIoError
  | dirCreateError
  | nameResolveError
  | metalinkParseError
  | ftpProtocolError
  | httpProtocolError
  | httpTooManyRedirects
  | httpAuthFailed
  | bencodeParseError
  | bittorrentParseError
  | magnetParseError
  | optionError
  | httpServiceUnavailable
  | jsonParseError
  | removed
  | checksumError
  /-- A code that is not known. -/
  | other (code : UInt32)
  deriving DecidableEq, Repr

namespace ExitCode

/-- The known codes in the order of their numbers. -/
def known : List ExitCode :=
  [.success, .unknownError, .timeout, .resourceNotFound, .maxFileNotFound, .tooSlowDownloadSpeed,
    .networkProblem, .inProgress, .remoteNoResume, .notEnoughDiskSpace, .pieceLengthChanged,
    .duplicateDownload, .duplicateInfoHash, .fileAlreadyExists, .fileRenamingFailed,
    .fileOpenError, .fileCreateError, .fileIoError, .dirCreateError, .nameResolveError,
    .metalinkParseError, .ftpProtocolError, .httpProtocolError, .httpTooManyRedirects,
    .httpAuthFailed, .bencodeParseError, .bittorrentParseError, .magnetParseError, .optionError,
    .httpServiceUnavailable, .jsonParseError, .removed, .checksumError]

/-- The code of a number. -/
def ofNumber (n : UInt32) : ExitCode := (known[n.toNat]?).getD (.other n)

/-- The number of a code. -/
def number : ExitCode → UInt32
  | .success => 0
  | .unknownError => 1
  | .timeout => 2
  | .resourceNotFound => 3
  | .maxFileNotFound => 4
  | .tooSlowDownloadSpeed => 5
  | .networkProblem => 6
  | .inProgress => 7
  | .remoteNoResume => 8
  | .notEnoughDiskSpace => 9
  | .pieceLengthChanged => 10
  | .duplicateDownload => 11
  | .duplicateInfoHash => 12
  | .fileAlreadyExists => 13
  | .fileRenamingFailed => 14
  | .fileOpenError => 15
  | .fileCreateError => 16
  | .fileIoError => 17
  | .dirCreateError => 18
  | .nameResolveError => 19
  | .metalinkParseError => 20
  | .ftpProtocolError => 21
  | .httpProtocolError => 22
  | .httpTooManyRedirects => 23
  | .httpAuthFailed => 24
  | .bencodeParseError => 25
  | .bittorrentParseError => 26
  | .magnetParseError => 27
  | .optionError => 28
  | .httpServiceUnavailable => 29
  | .jsonParseError => 30
  | .removed => 31
  | .checksumError => 32
  | .other n => n

/-- Whether the code says that there was no error. -/
def isSuccess (code : ExitCode) : Bool := code = .success

/-- What a code means, in a few words. -/
def description : ExitCode → String
  | .success => "success"
  | .unknownError => "unknown error"
  | .timeout => "timeout"
  | .resourceNotFound => "resource not found"
  | .maxFileNotFound => "too many resource-not-found errors"
  | .tooSlowDownloadSpeed => "download speed too slow"
  | .networkProblem => "network problem"
  | .inProgress => "unfinished downloads"
  | .remoteNoResume => "remote server does not support resume"
  | .notEnoughDiskSpace => "not enough disk space"
  | .pieceLengthChanged => "piece length differs from control file"
  | .duplicateDownload => "same file is already being downloaded"
  | .duplicateInfoHash => "same info hash is already being downloaded"
  | .fileAlreadyExists => "file already exists"
  | .fileRenamingFailed => "renaming file failed"
  | .fileOpenError => "could not open existing file"
  | .fileCreateError => "could not create or truncate file"
  | .fileIoError => "file I/O error"
  | .dirCreateError => "could not create directory"
  | .nameResolveError => "name resolution failed"
  | .metalinkParseError => "could not parse Metalink document"
  | .ftpProtocolError => "FTP command failed"
  | .httpProtocolError => "bad or unexpected HTTP response header"
  | .httpTooManyRedirects => "too many redirects"
  | .httpAuthFailed => "HTTP authorization failed"
  | .bencodeParseError => "could not parse bencoded file"
  | .bittorrentParseError => "torrent file is corrupted or incomplete"
  | .magnetParseError => "bad magnet URI"
  | .optionError => "bad or unrecognized option"
  | .httpServiceUnavailable => "remote server overloaded or in maintenance"
  | .jsonParseError => "could not parse JSON-RPC request"
  | .removed => "removed"
  | .checksumError => "checksum validation failed"
  | .other _ => "unrecognized error code"

/-- The name of a code. -/
def label : ExitCode → String
  | .success => "Success"
  | .unknownError => "UnknownError"
  | .timeout => "Timeout"
  | .resourceNotFound => "ResourceNotFound"
  | .maxFileNotFound => "MaxFileNotFound"
  | .tooSlowDownloadSpeed => "TooSlowDownloadSpeed"
  | .networkProblem => "NetworkProblem"
  | .inProgress => "InProgress"
  | .remoteNoResume => "RemoteNoResume"
  | .notEnoughDiskSpace => "NotEnoughDiskSpace"
  | .pieceLengthChanged => "PieceLengthChanged"
  | .duplicateDownload => "DuplicateDownload"
  | .duplicateInfoHash => "DuplicateInfoHash"
  | .fileAlreadyExists => "FileAlreadyExists"
  | .fileRenamingFailed => "FileRenamingFailed"
  | .fileOpenError => "FileOpenError"
  | .fileCreateError => "FileCreateError"
  | .fileIoError => "FileIoError"
  | .dirCreateError => "DirCreateError"
  | .nameResolveError => "NameResolveError"
  | .metalinkParseError => "MetalinkParseError"
  | .ftpProtocolError => "FtpProtocolError"
  | .httpProtocolError => "HttpProtocolError"
  | .httpTooManyRedirects => "HttpTooManyRedirects"
  | .httpAuthFailed => "HttpAuthFailed"
  | .bencodeParseError => "BencodeParseError"
  | .bittorrentParseError => "BittorrentParseError"
  | .magnetParseError => "MagnetParseError"
  | .optionError => "OptionError"
  | .httpServiceUnavailable => "HttpServiceUnavailable"
  | .jsonParseError => "JsonParseError"
  | .removed => "Removed"
  | .checksumError => "ChecksumError"
  | .other n => "Unknown(" ++ n.toNat.repr ++ ")"

/-- The number and what it means. -/
def text (code : ExitCode) : String := code.number.toNat.repr ++ " (" ++ code.description ++ ")"

end ExitCode

end DownloadReport

import DownloadReport.CommandLine
import DownloadReport.Folder

/-! What the program does with its arguments: the part of it that decides, without the part that reads
    and prints. -/

namespace DownloadReport

/-- The text of bytes, unless they are no UTF-8. -/
def textOf? (bytes : List UInt8) : Option String := String.fromUTF8? ⟨bytes.toArray⟩

/-- The text of an input, given what was found there. A fault is named with the path, if there is one. -/
def inputText (path : Option String) (found : Except PathFault (List UInt8)) :
    Traced Event InspectError String :=
  let named (reason : String) : String :=
    match path with
    | some p => p ++ ": " ++ reason
    | none => reason
  let started : Event := (path.map Event.readingFile).getD .readingStandardInput
  let text : Except InspectError String :=
    match found with
    | .error .notFound => .error (.noInput (path.getD ""))
    | .error fault => .error (.io (named fault.reason))
    | .ok bytes =>
      match textOf? bytes with
      | some text => .ok text
      | none => .error (.io (named "stream did not contain valid UTF-8"))
  ⟨[started], text⟩

/-- Inspects an input, given what was found there. -/
def Options.inspect (o : Options) (found : Except PathFault (List UInt8)) :
    Traced Event InspectError String := do
  let text ← inputText o.path found
  render o.format text

/-- What the program leaves behind. -/
structure Ending where
  exitCode : UInt8
  /-- What goes to standard output. -/
  output : String := ""
  /-- What goes to standard error at the end. -/
  complaint : Option String := none
  events : List Event := []

def versionText : String := "arigo 0.1.0\n"

def helpText : String :=
  "Inspect aria2 download status payloads\n\n" ++
  "Usage: arigo [OPTIONS] [INPUT]\n\n" ++
  "Arguments:\n" ++
  "  [INPUT]  JSON file to read. Omit or pass `-` to read stdin\n\n" ++
  "Options:\n" ++
  "  -o, --output <OUTPUT>  Output format [env: ARIGO_OUTPUT=] [default: summary] " ++
  "[possible values: summary, json]\n" ++
  "  -v, --verbose          Enable verbose/debug output\n" ++
  "  -h, --help             Print help\n" ++
  "  -V, --version          Print version\n"

def UsageError.message : UsageError → String
  | .unknownOption name => "unexpected argument '" ++ name ++ "' found"
  | .repeatedOption name => "the argument '" ++ name ++ "' cannot be used multiple times"
  | .missingValue name => "a value is required for '" ++ name ++ "' but none was supplied"
  | .badValue name value => "invalid value '" ++ value ++ "' for '" ++ name ++ "'"
  | .surplusInput input => "unexpected argument '" ++ input ++ "' found"
  | .emptyInput => "a value is required for 'INPUT' but none was supplied"

/-- The end of an inspection. -/
def Ending.ofInspection (x : Traced Event InspectError String) : Ending :=
  match x.outcome with
  | .ok text => { exitCode := 0, output := text ++ "\n", events := x.events }
  | .error e =>
    { exitCode := e.exitCode
      complaint := some ("Error: " ++ e.message)
      events := x.events ++ [.failed e.message] }

/-- The end of what was asked for, given what is found at a path or, without one, at standard input. -/
def Ending.ofRequest (find : Option String → Except PathFault (List UInt8)) :
    Except UsageError Request → Ending
  | .error e => { exitCode := 2, complaint := some ("error: " ++ e.message) }
  | .ok .help => { exitCode := 0, output := helpText }
  | .ok .version => { exitCode := 0, output := versionText }
  | .ok (.inspect o) => .ofInspection (o.inspect (find o.path))

end DownloadReport

import DownloadReport.Program

/-! The program: reads what its arguments name, prints what comes of it, and writes events to standard
    error, warnings always and the others on request. -/

namespace DownloadReport

/-- What the system found at a path. -/
def PathFault.ofSystem : IO.Error → PathFault
  | .noFileOrDirectory .. => .notFound
  | .inappropriateType _ code details => .other (details ++ " (os error " ++ toString code ++ ")")
  | e => .other (toString e)

/-- Reads a file, or standard input. -/
def readBytes : Option String → IO (Except PathFault (List UInt8))
  | some path => do
    try
      let bytes ← IO.FS.readBinFile path
      return .ok bytes.toList
    catch e => return .error (.ofSystem e)
  | none => do
    let bytes ← (← IO.getStdin).readBinToEnd
    return .ok bytes.toList

/-- Whether an event is written out. -/
def Event.isShown (verbose : Bool) (e : Event) : Bool :=
  match e.level with
  | .warn => true
  | .debug => verbose
  | .trace => false

/-- Runs the program on its arguments. -/
def run (args : List String) : IO UInt32 := do
  let request := Request.ofArguments (← IO.getEnv "ARIGO_OUTPUT") args
  let (found, verbose) ← match request with
    | .ok (.inspect o) => do pure (← readBytes o.path, o.verbose)
    | _ => pure (.ok [], false)
  let ending := Ending.ofRequest (fun _ => found) request
  for e in ending.events do
    if e.isShown verbose then IO.eprintln e.text
  IO.print ending.output
  if let some complaint := ending.complaint then IO.eprintln complaint
  return ending.exitCode.toUInt32

end DownloadReport

def main (args : List String) : IO UInt32 := DownloadReport.run args

import DownloadReport.Inspection

/-! The command line. Arguments are taken from left to right and the first that cannot be understood
    counts, unless help or the version was asked for before it. Single letters may share a dash; the
    value of `-o` may follow it at once, behind an equals sign, or as the next argument. Behind `--`
    nothing is an option. -/

namespace DownloadReport

/-- What is to be inspected and how. -/
structure Options where
  /-- The input as it was named. -/
  input : Option String
  format : Format
  verbose : Bool
  deriving DecidableEq, Repr

/-- The file to read; standard input if none is named, or a dash. -/
def Options.path (o : Options) : Option String := o.input.filter (· ≠ "-")

/-- What a command line asks for. -/
inductive Request where
  | inspect (options : Options)
  | help
  | version
  deriving DecidableEq, Repr

/-- Why a command line is not understood. -/
inductive UsageError where
  | unknownOption (name : String)
  | repeatedOption (name : String)
  | missingValue (name : String)
  | badValue (name value : String)
  | surplusInput (input : String)
  | emptyInput
  deriving DecidableEq, Repr

/-- What has been taken from the arguments so far. -/
structure Arguments where
  input : Option String := none
  format : Option Format := none
  verbose : Bool := false
  deriving DecidableEq, Repr

namespace Arguments

/-- The flag for more output. -/
def takeVerbose (p : Arguments) : Except UsageError Arguments :=
  if p.verbose then .error (.repeatedOption "verbose") else .ok { p with verbose := true }

/-- The value of the format option. -/
def takeFormat (p : Arguments) (value : String) : Except UsageError Arguments :=
  match Format.ofWord? value with
  | none => .error (.badValue "output" value)
  | some f =>
    if p.format.isSome then .error (.repeatedOption "output") else .ok { p with format := some f }

/-- An argument that is no option. -/
def takeInput (p : Arguments) (value : String) : Except UsageError Arguments :=
  if p.input.isSome then .error (.surplusInput value)
  else if value = "" then .error .emptyInput
  else .ok { p with input := some value }

/-- What an argument asks for. -/
inductive Outcome where
  | done (p : Arguments)
  /-- The value of `-o` is the next argument. -/
  | wantsFormat (p : Arguments)
  | request (r : Request)

/-- The letters behind a single dash. -/
def takeLetters (p : Arguments) : List Char → Except UsageError Outcome
  | [] => .ok (.done p)
  | 'v' :: rest => do takeLetters (← p.takeVerbose) rest
  | 'h' :: _ => .ok (.request .help)
  | 'V' :: _ => .ok (.request .version)
  | ['o'] => .ok (.wantsFormat p)
  | 'o' :: '=' :: value => (p.takeFormat (String.ofList value)).map .done
  | 'o' :: value => (p.takeFormat (String.ofList value)).map .done
  | c :: _ => .error (.unknownOption c.toString)

/-- The name behind two dashes, and the value behind an equals sign. -/
def takeName (p : Arguments) (name : String) (value : Option String) : Except UsageError Outcome :=
  if name = "output" then
    match value with
    | some v => (p.takeFormat v).map .done
    | none => .ok (.wantsFormat p)
  else
    match value with
    | some v => .error (.badValue name v)
    | none =>
      if name = "verbose" then p.takeVerbose.map .done
      else if name = "help" then .ok (.request .help)
      else if name = "version" then .ok (.request .version)
      else .error (.unknownOption name)

/-- A name and what stands behind its first equals sign. -/
def splitName (cs : List Char) : String × Option String :=
  (String.ofList (cs.takeWhile (· ≠ '=')), ((cs.dropWhile (· ≠ '=')).tail?).map String.ofList)

/-- One argument, where options are still looked for. -/
def takeArgument (p : Arguments) (arg : String) : Except UsageError Outcome :=
  match arg.toList with
  | '-' :: '-' :: rest =>
    let (name, value) := splitName rest
    p.takeName name value
  | '-' :: c :: rest => p.takeLetters (c :: rest)
  | _ => (p.takeInput arg).map .done

/-- The arguments from left to right. A value that begins with a dash is not a format, whether it would
    be an option or not. -/
def takeAll (p : Arguments) : List String → Except UsageError (Arguments ⊕ Request)
  | [] => .ok (.inl p)
  | "--" :: rest => (rest.foldlM takeInput p).map .inl
  | arg :: rest => do
    match ← p.takeArgument arg with
    | .done p => takeAll p rest
    | .request r => return .inr r
    | .wantsFormat p =>
      match rest with
      | [] => .error (.missingValue "output")
      | value :: rest => takeAll (← p.takeFormat value) rest

end Arguments

/-- The format that the surroundings ask for, unless an option does. -/
def defaultFormat : Option String → Except UsageError Format
  | none => .ok .summary
  | some value =>
    match Format.ofWord? value with
    | some f => .ok f
    | none => .error (.badValue "output" value)

/-- What the arguments ask for; `surroundings` is the format named outside of them. -/
def Request.ofArguments (surroundings : Option String) (args : List String) :
    Except UsageError Request := do
  match ← Arguments.takeAll {} args with
  | .inr r => return r
  | .inl p =>
    let format ← match p.format with
      | some f => pure f
      | none => defaultFormat surroundings
    return .inspect { input := p.input, format, verbose := p.verbose }

end DownloadReport

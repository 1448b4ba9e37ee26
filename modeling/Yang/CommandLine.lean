import Yang.Run
import Yang.Text.Codec

/-!
This module contains the command line: its options, what a command does with files and standard input, and what it
writes.
-/

namespace Yang

inductive UsageFault where
  | unknownOption (name : String)
  | missingValue (name : String)
  | needlessValue (name : String)
  | badPath (name path : String)
  deriving DecidableEq, Repr, Inhabited

def UsageFault.message : UsageFault → String
  | unknownOption name => "No such option: " ++ name
  | missingValue name => "Option '" ++ name ++ "' requires an argument."
  | needlessValue name => "Option '" ++ name ++ "' does not take a value."
  | badPath name path => "Invalid value for '" ++ name ++ "': " ++ path

structure Options where
  paths : List String
  format : Option String
  trace : Option String
  verbose : Bool
  version : Bool
  help : Bool
  arguments : List String
  deriving DecidableEq, Repr, Inhabited

namespace Options

def empty : Options :=
  ⟨[], none, none, false, false, false, []⟩

def give? (options : Options) (name value : String) : Option Options :=
  match name with
  | "--path" => some { options with paths := options.paths ++ [value] }
  | "--format" => some { options with format := some value }
  | "--trace" => some { options with trace := some value }
  | _ => none

def set? (options : Options) (name : String) : Option Options :=
  match name with
  | "--verbose" => some { options with verbose := true }
  | "-v" => some { options with verbose := true }
  | "--version" => some { options with version := true }
  | "--help" => some { options with help := true }
  | "-h" => some { options with help := true }
  | _ => none

def setLetters (options : Options) : List Char → Except UsageFault Options
  | [] => .ok options
  | c :: rest =>
    let name := String.ofList ['-', c]
    match options.set? name with
    | some options => setLetters options rest
    | none => .error (.unknownOption name)

def use (options : Options) (name : String) (value next : Option String) : Except UsageFault (Options × Bool) :=
  match options.set? name, value with
  -- an option without a value leaves the next argument alone
  | some options, none => .ok (options, false)
  | some _, some _ => .error (.needlessValue name)
  | none, some value =>
    match options.give? name value with
    | some options => .ok (options, false)
    | none => .error (.unknownOption name)
  | none, none =>
    match options.give? name "", next with
    | none, _ => .error (.unknownOption name)
    | some _, none => .error (.missingValue name)
    | some _, some value =>
      match options.give? name value with
      | some options => .ok (options, true)
      | none => .error (.unknownOption name)

def splitValue (argument : String) : String × Option String :=
  match Text.pieces '=' argument.toList with
  | name :: first :: more =>
    (String.ofList name, some (String.ofList (['='].intercalate (first :: more))))
  | _ => (argument, none)

def read (options : Options) (isUsed : Bool) : List String → Except UsageFault Options
  | [] => .ok options
  | argument :: rest =>
    if isUsed then
      read options false rest
    else if argument = "--" then
      .ok { options with arguments := options.arguments ++ rest }
    else
      match argument.toList with
      | '-' :: '-' :: _ =>
        let (name, value) := splitValue argument
        match options.use name value rest.head? with
        | .ok (options, isUsed) => read options isUsed rest
        | .error fault => .error fault
      | '-' :: c :: letters =>
        match options.setLetters (c :: letters) with
        | .ok options => read options false rest
        | .error fault => .error fault
      | _ => read { options with arguments := options.arguments ++ [argument] } false rest

def ofArguments (arguments : List String) : Except UsageFault Options :=
  empty.read false arguments

def fault? (options : Options) : Option UsageFault :=
  options.trace.bind fun path =>
    if (Path.ofText path).hasNul then some (.badPath "--trace" path) else none

def settings (options : Options) (environmentPath : Option String) : Settings :=
  let texts := if options.paths.isEmpty then Text.words (environmentPath.getD "") else options.paths
  { searchPath := (pathList texts).map Path.ofText
    format := options.format.getD Settings.defaultFormat
    trace := options.trace.map Path.ofText
    verbose := options.verbose }

end Options

inductive Escape where
  | failed (failure : Failure)
  | unformatted (fault : FormatFault)
  | unwritten (run : Text.Unwritten)
  deriving DecidableEq, Repr, Inhabited

def Escape.message : Escape → String
  | failed failure => failure.message
  | unformatted fault => fault.message
  | unwritten run => run.message

structure CommandResult where
  exitCode : Nat
  output : String
  errors : String
  escaped : Option Escape
  files : Files
  deriving Inhabited

namespace Command

def version : String := "0.1.0"

def help (registry : Registry) : String :=
  "Usage: schematree [OPTIONS] [MODULE] [FILE]...\n\n"
    ++ "  Display schema modules in the selected format.\n\nOptions:\n"
    ++ "  --path TEXT     Comma separated list of directories to add to the search path.\n"
    ++ "  --format TEXT   Format to display: " ++ ", ".intercalate registry.names ++ ".\n"
    ++ "  --trace PATH    File to write a profile trace into.\n"
    ++ "  -v, --verbose   Log loading details to stderr.\n"
    ++ "  --version       Print the version and exit.\n"
    ++ "  -h, --help      Show this message and exit.\n\n"
    ++ registry.epilog ++ "\n"

def levelColumns : Nat := 8

def recordColumns : Nat := 71

def logLine (note : Note) : String :=
  let lines := Text.Fold.lines recordColumns (Label.dropControls note.record.toList)
  let level := Text.Fold.pad (levelColumns + 1) Note.level.toList
  let blank := List.replicate (levelColumns + 1) ' '
  String.join <| (List.range lines.length).map fun i =>
    let line := (lines[i]?).getD []
    String.ofList ((if i = 0 then level else blank) ++ Text.Fold.pad recordColumns line) ++ "\n"

def transcriptLine (verbose : Bool) : Line → String
  | .note n => if verbose then logLine n else ""
  | .problem d => Report.line d.message

def writable : List String → List String × Option Text.Unwritten
  | [] => ([], none)
  | piece :: rest =>
    match Text.Codec.utf8.unwritten? piece with
    | some run => ([], some run)
    | none =>
      let (more, stop) := writable rest
      (piece :: more, stop)

/--
What a command writes about a run that has ended. Messages can always be written, with the halves of pairs in
hexadecimal; the output ends where it cannot be written.
-/
def finish (settings : Settings) (report : Report) (files : Files) : CommandResult :=
  let (pieces, stop) := writable report.pieces
  let output := String.join pieces
  let errors := String.join (report.transcript.map (transcriptLine settings.verbose))
  match report.result with
  | .ok _ =>
    match stop with
    | none => ⟨0, output, Text.escapeHalves errors, none, files⟩
    | some run => ⟨1, output, Text.escapeHalves errors, some (.unwritten run), files⟩
  | .error (.failed failure) => ⟨1, output, Text.escapeHalves errors, some (.failed failure), files⟩
  | .error (.unformatted fault) =>
    match stop with
    | none => ⟨1, output, Text.escapeHalves errors, some (.unformatted fault), files⟩
    | some run => ⟨1, output, Text.escapeHalves errors, some (.unwritten run), files⟩
  | .error stop =>
    ⟨1, output, Text.escapeHalves (errors ++ String.join (stop.messages.map Report.line)), none, files⟩

def traceContent : List UInt8 :=
  "run\n".toUTF8.toList

def runTraced (settings : Settings) (registry : Registry) (files : Files) (arguments : List String)
    (input : List UInt8) : CommandResult :=
  match settings.trace with
  | none => finish settings (run settings registry files arguments input) files
  | some path =>
    match files.openForWriting path with
    | .error fault =>
      ⟨1, "", Text.escapeHalves (Report.line (path.text ++ ": " ++ fault.cause.message)), none, files⟩
    | .ok site =>
      let report := run settings registry (files.writeSite site []) arguments input
      finish settings report (files.writeSite site traceContent)

def execute (registry : Registry) (files : Files) (environmentPath : Option String) (arguments : List String)
    (input : List UInt8) : CommandResult :=
  match Options.ofArguments arguments with
  | .error fault => ⟨2, "", fault.message ++ "\n", none, files⟩
  | .ok options =>
    if options.help then
      ⟨0, help registry, "", none, files⟩
    else
      match options.fault? with
      | some fault => ⟨2, "", fault.message ++ "\n", none, files⟩
      | none =>
        if options.version then ⟨0, version ++ "\n", "", none, files⟩
        else runTraced (options.settings environmentPath) registry files options.arguments input

def readsInput (arguments : List String) : Bool :=
  match Options.ofArguments arguments with
  | .error _ => false
  | .ok options => !options.help && !options.version && (Request.ofArguments options.arguments).readsInput

def mentions (bytes : List UInt8) : List String :=
  match Files.decodeText bytes with
  | .error _ => []
  | .ok text =>
    match Document.parse text "" with
    | .error _ => []
    | .ok documents =>
      documents.flatMap fun d => d.body.includes ++ d.body.imports.map Import.moduleName

def lookedAt (environmentPath : Option String) (arguments : List String) (input : List UInt8) (files : Files) :
    List Path :=
  match Options.ofArguments arguments with
  | .error _ => []
  | .ok options =>
    let settings := options.settings environmentPath
    let request := Request.ofArguments options.arguments
    let mentioned := (input :: files.contents.map Prod.snd).flatMap mentions
    let loaded := (request.moduleName.toList ++ mentioned).map (fun name => name ++ schemaSuffix)
    let sought := (request.files ++ defaultModulesFile :: loaded).flatMap (Store.candidates settings.searchPath)
    (settings.trace.toList ++ sought).flatMap Path.stages

end Command

end Yang

import Yang.Format.Registry
import Yang.Library
import Yang.Settings
import Yang.Text.Fold

/-!
This module contains runs: the arguments say what to read, and what was read is processed and written in a format.
-/

namespace Yang

structure Request where
  moduleName : Option String
  files : List String
  deriving DecidableEq, Repr, Inhabited

namespace Request

def ofArguments : List String → Request
  | [] => ⟨none, []⟩
  | first :: rest =>
    if first.endsWith schemaSuffix then ⟨none, first :: rest⟩ else ⟨some first, rest⟩

def readsInput (request : Request) : Bool :=
  request.moduleName.isNone && request.files.isEmpty

end Request

inductive Stop where
  | badFormat (format : String) (choices : List String)
  | problems (list : List Diagnostic)
  | noModuleAsked
  | failed (failure : Failure)
  | unformatted (fault : FormatFault)
  deriving DecidableEq, Repr, Inhabited

namespace Stop

def ofHalt : Halt → Stop
  | .problems list => problems list
  | .failed failure => failed failure

def messages : Stop → List String
  | badFormat format choices =>
    [format ++ ": invalid format.  Choices are " ++ ", ".intercalate choices]
  | problems list => list.map Diagnostic.message
  | noModuleAsked => ["resolve_named needs a module request"]
  | failed failure => [failure.message]
  | unformatted fault => [fault.message]

def isReported : Stop → Bool
  | badFormat .. => true
  | problems _ => true
  | _ => false

end Stop

inductive Line where
  | note (n : Note)
  | problem (d : Diagnostic)
  deriving DecidableEq, Repr, Inhabited

/--
What a run leaves: the entries that it wrote or the reason why it stopped, what it wrote, piece by piece, and its
transcript.
-/
structure Report where
  result : Except Stop (List Entry)
  pieces : List String
  transcript : List Line
  deriving Inhabited

namespace Report

def output (report : Report) : String :=
  String.join report.pieces

def journal (report : Report) : List Note :=
  report.transcript.filterMap fun
    | .note n => some n
    | .problem _ => none

def line (message : String) : String :=
  let lines := (Text.pieces '\n' (Label.dropControls message.toList)).map Text.Fold.expandTabs
  String.ofList (['\n'].intercalate lines) ++ "\n"

def errors (report : Report) : String :=
  String.join <| report.transcript.map fun
    | .note _ => ""
    | .problem d => line d.message

end Report

namespace Run

def inputSource : String := "<STDIN>"

def readInput (set : ModuleSet) (input : List UInt8) : Option Stop × ModuleSet :=
  match Files.decodeText input with
  | .error fault => (some (.problems [⟨inputSource, .notUnicode fault⟩]), set)
  | .ok text =>
    match set.parse text inputSource with
    | (.ok _, set) => (none, set)
    | (.error failure, set) => (some (.ofHalt failure.halt), set)

def notesBetween (before after : ModuleSet) : List Line :=
  (after.store.journal.drop before.store.journal.length).map Line.note

def readFiles (set : ModuleSet) (files : Files) : List String → List Line × Option Stop × ModuleSet
  | [] => ([], none, set)
  | name :: rest =>
    let (outcome, after) := set.read files name
    let notes := notesBetween set after
    match outcome with
    | .ok _ =>
      let (lines, stop, final) := readFiles after files rest
      (notes ++ lines, stop, final)
    | .error (.refused (.problem d)) =>
      let (lines, stop, final) := readFiles after files rest
      (notes ++ .problem d :: lines, stop, final)
    | .error failure => (notes, some (.failed failure), after)

def load (set : ModuleSet) (files : Files) (request : Request) (input : List UInt8) :
    List Line × Option Stop × ModuleSet :=
  if request.readsInput then
    let (stop, after) := readInput set input
    (notesBetween set after, stop, after)
  else
    readFiles set files request.files

def resolveNamed (files : Files) (searchPath : List Path) (request : Request) :
    Except Stop (List Entry) × List Line :=
  match request.moduleName with
  | none => (.error .noModuleAsked, [])
  | some name =>
    let (outcome, set) := getModule files searchPath name request.files
    ((outcome.map (fun e => [e])).mapError .ofHalt, set.store.journal.map .note)

def resolveAll (files : Files) (searchPath : List Path) (request : Request) (input : List UInt8) :
    Except Stop (List Entry) × List Line :=
  let (lines, stop, loaded) := load (.empty searchPath) files request input
  match stop with
  | some stop => (.error stop, lines)
  | none =>
    let (outcome, set) := loaded.settle files
    match outcome with
    | .error halt => (.error (.ofHalt halt), lines ++ notesBetween loaded set)
    | .ok () =>
      let set := set.note (.rendering (set.store.topLevel.map Module.name))
      (set.topLevelEntries.mapError .failed, lines ++ notesBetween loaded set)

end Run

/--
Run: read what the arguments ask for, process it, and write it in the format of the settings.
-/
def run (settings : Settings) (registry : Registry) (files : Files) (arguments : List String)
    (input : List UInt8) : Report :=
  match registry.lookup settings.format with
  | none => ⟨.error (.badFormat settings.format registry.names), [], []⟩
  | some formatter =>
    let request := Request.ofArguments arguments
    let (result, transcript) :=
      if request.moduleName.isSome then
        Run.resolveNamed files settings.searchPath request
      else
        Run.resolveAll files settings.searchPath request input
    match result with
    | .error stop => ⟨.error stop, [], transcript⟩
    | .ok entries =>
      match formatter.write entries with
      | (pieces, none) => ⟨.ok entries, pieces, transcript⟩
      | (pieces, some fault) => ⟨.error (.unformatted fault), pieces, transcript⟩

end Yang

import Yang.Path
import Yang.Schema.Record

/-!
This module contains the settings of a run, and how they are read from data.
-/

namespace Yang

open Yang.Yaml (Value)

/--
The paths in texts that hold several of them, with commas between. Blanks around a path go, and so does a path
that is nothing else.
-/
def pathList (texts : List String) : List String :=
  texts.flatMap fun s =>
    ((Text.splitAt ',' s).map Text.strip).filter (fun part => part != "")

def pathListOf : Value → List String
  | .null => []
  | .text s => pathList [s]
  | value => pathList (((Field.items? value).getD []).map Value.words)

structure Settings where
  searchPath : List Path
  format : String
  trace : Option Path
  verbose : Bool
  deriving DecidableEq, Repr, Inhabited

namespace Settings

def defaultFormat : String := "tree"

def path : Value → Checked Path
  | .text s => .good (Path.ofText s)
  | _ => .fail .notPath

def text? : Value → Option String
  | .text s => some s
  | _ => none

def texts? (values : List Value) : Option (List String) :=
  values.mapM text?

/--
A search path: nothing, texts that hold paths, or a list of paths. The texts of a set hold one path each.
-/
def searchPathOf (value : Value) : Checked (List Path) :=
  match value with
  | .null => .good []
  | .text s => .good ((pathList [s]).map Path.ofText)
  | .set _ => Field.list path value
  | value =>
    match (Field.items? value).bind texts? with
    | some texts => .good ((pathList texts).map Path.ofText)
    | none => Field.list path value

def read (entries : Entries) : Checked Settings :=
  Settings.mk
    <$> Record.withDefault "search_path" [] searchPathOf entries
    <*> Record.withDefault "format" defaultFormat Field.text entries
    <*> Record.optional "trace" path entries
    <*> Record.withDefault "verbose" false Field.truth entries

def withPaths (settings : Settings) (texts : List String) : Settings :=
  { settings with searchPath := settings.searchPath ++ (pathList texts).map Path.ofText }

inductive AssignFault where
  | frozen (name : String)
  | notClass (kind : String)
  | notDictionary (kind : String)
  | notWritable (name : String)
  | noSetter (name : String)
  deriving DecidableEq, Repr, Inhabited

def AssignFault.message : AssignFault → String
  | frozen name => describeIssues [⟨[name], .frozen⟩]
  | notClass kind => "__class__ must be set to a class, not '" ++ kind ++ "' object"
  | notDictionary kind => "__dict__ must be set to a dictionary, not a '" ++ kind ++ "'"
  | notWritable name => "attribute '" ++ name ++ "' of 'PipelineConfig' objects is not writable"
  | noSetter name => "property '" ++ name ++ "' of 'PipelineConfig' object has no setter"

def assign (name : String) (value : Value) : Option AssignFault :=
  if name.startsWith "_" then
    match name, value with
    | "__class__", value => some (.notClass value.kindName)
    | "__dict__", .mapping .. => none
    | "__dict__", value => some (.notDictionary value.kindName)
    | "__weakref__", _ => some (.notWritable name)
    | "__fields_set__", _ => some (.noSetter name)
    | _, _ => none
  else
    some (.frozen name)

end Settings

end Yang

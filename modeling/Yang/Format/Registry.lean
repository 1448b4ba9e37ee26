import Yang.Format.Drawing
import Yang.Format.Json
import Yang.Format.Outline
import Yang.Yaml.Value

/-!
This module contains the registry of output formats. A format takes the place of an earlier one of the same name.
-/

namespace Yang

/--
An output format: what it writes of trees, piece by piece until something cannot be written, and what its name and help
line are.
-/
structure Formatter where
  name : String
  help : String
  write : List Entry → List String × Option FormatFault

def Formatter.render (formatter : Formatter) (entries : List Entry) : Except FormatFault String :=
  match formatter.write entries with
  | (pieces, none) => .ok (String.join pieces)
  | (_, some fault) => .error fault

def Formatter.template (name help text : String) : Formatter where
  name := name
  help := help
  write entries :=
    let names := ",".intercalate (entries.map Entry.name)
    ([String.join (text.toList.map (fun c => if c = '%' then names else String.singleton c))], none)

def writeJson (entries : List Entry) : List String × Option FormatFault :=
  match renderJson entries with
  | .ok text => ([text], none)
  | .error fault => ([], some fault)

def builtinFormats : List Formatter :=
  [⟨"tree", "indented tree of every module (default)", fun entries => (outlineLines entries, none)⟩,
    ⟨"json", "module trees as JSON", writeJson⟩,
    ⟨"paths", "one line per data node: access, path and type", fun entries => (pathLines entries, none)⟩,
    ⟨"types", "types used by each module, resolved to built-ins", fun entries => (typeLines entries, none)⟩,
    ⟨"rich", "tree view drawn with rich", fun entries => (drawings entries, none)⟩]

structure Registry where
  table : List (String × Formatter)

structure EntryPoint where
  name : String
  format : Option Formatter

namespace Registry

def empty : Registry :=
  ⟨[]⟩

def register (registry : Registry) (formatter : Formatter) : Registry :=
  ⟨put formatter.name formatter registry.table⟩

def registerAll (registry : Registry) (formatters : List Formatter) : Registry :=
  formatters.foldl register registry

def builtin : Registry :=
  empty.registerAll builtinFormats

def lookup (registry : Registry) (name : String) : Option Formatter :=
  registry.table.lookup name

def contains (registry : Registry) (name : String) : Bool :=
  (registry.lookup name).isSome

def named? (registry : Registry) (value : Yaml.Value) : Option (Option Formatter) :=
  match value with
  | .text name => some (registry.lookup name)
  | value => if value.isKey then some none else none

def size (registry : Registry) : Nat :=
  registry.table.length

def names (registry : Registry) : List String :=
  Text.sorted (registry.table.map Prod.fst)

def toList (registry : Registry) : List Formatter :=
  registry.names.filterMap registry.lookup

def load (registry : Registry) : List EntryPoint → Registry × Option EntryPoint
  | [] => (registry, none)
  | point :: rest =>
    match point.format with
    | some formatter => load (registry.register formatter) rest
    | none => (registry, some point)

def epilog (registry : Registry) : String :=
  "\n\n".intercalate ("Formats:" :: registry.toList.map (fun f => f.name ++ " - " ++ f.help))

end Registry

def EntryPoint.refusal (point : EntryPoint) : String :=
  "entry point " ++ point.name ++ " does not provide a Formatter"

end Yang

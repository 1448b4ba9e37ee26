import Yang.Schema.Issue
import Yang.Yaml.Fault

/-!
This module contains the problems of schema sources. A problem names the source it was found in and its cause.
-/

namespace Yang

inductive Definition where
  | typedef
  | grouping
  deriving DecidableEq, Repr, Inhabited

def Definition.asked : Definition → String
  | typedef => "type"
  | grouping => "grouping"

def Definition.word : Definition → String
  | typedef => "typedef"
  | grouping => "grouping"

inductive Finding where
  | includeNotFound (name : String)
  | includeOfOther (name owner : String)
  | duplicate (what : Definition) (name : String)
  | prefixShadows (moduleName prefixId : String)
  | prefixTaken (moduleName prefixId : String)
  | importNotFound (moduleName : String)
  | unknownPrefix (prefixId : String) (what : Definition) (reference : String)
  | unknownName (what : Definition) (reference : String)
  | recursive (what : Definition) (name : String)
  | strayCase (name : String)
  | noCase (kind : NodeKind) (name : String)
  | duplicateNode (name place : String)
  | writableUnderState (kind : NodeKind) (name : String)
  | mandatoryWithDefault (name : String)
  | noEnums (kind : NodeKind) (name : String)
  | noPath (kind : NodeKind) (name : String)
  | noKeyLeaf (name key : String)
  | noKey (name : String)
  | noSuchCase (name default : String)
  | unknownTargetPrefix (prefixId target : String)
  | targetUnavailable (target moduleName : String)
  | targetNoContainer (target : String)
  | targetNotFound (target : String)
  deriving DecidableEq, Repr, Inhabited

def Finding.message : Finding → String
  | includeNotFound name => "include " ++ name ++ ": submodule not found"
  | includeOfOther name owner => "include " ++ name ++ ": submodule belongs to " ++ owner
  | duplicate what name => "duplicate " ++ what.word ++ " " ++ name
  | prefixShadows moduleName prefixId =>
    "import " ++ moduleName ++ ": prefix " ++ prefixId ++ " shadows the module prefix"
  | prefixTaken moduleName prefixId => "import " ++ moduleName ++ ": duplicate prefix " ++ prefixId
  | importNotFound moduleName => "import " ++ moduleName ++ ": module not found"
  | unknownPrefix prefixId what reference =>
    "unknown prefix " ++ prefixId ++ " in " ++ what.asked ++ " " ++ reference
  | unknownName what reference => "unknown " ++ what.asked ++ " " ++ reference
  | recursive what name => what.word ++ " " ++ name ++ " is recursive"
  | strayCase name => "case " ++ name ++ " must be inside a choice"
  | noCase kind name => kind.word ++ " " ++ name ++ " in choice must be a case"
  | duplicateNode name place => "duplicate node " ++ name ++ " in " ++ place
  | writableUnderState kind name => kind.word ++ " " ++ name ++ ": config true under config false"
  | mandatoryWithDefault name => "leaf " ++ name ++ ": mandatory leaf cannot have a default"
  | noEnums kind name => kind.word ++ " " ++ name ++ ": enumeration requires enums"
  | noPath kind name => kind.word ++ " " ++ name ++ ": leafref requires a path"
  | noKeyLeaf name key => "list " ++ name ++ ": key " ++ key ++ " is not a leaf of the list"
  | noKey name => "list " ++ name ++ ": configuration lists require a key"
  | noSuchCase name default => "choice " ++ name ++ ": default " ++ default ++ " is not a case"
  | unknownTargetPrefix prefixId target =>
    "unknown prefix " ++ prefixId ++ " in augment target " ++ target
  | targetUnavailable target moduleName =>
    "augment target " ++ target ++ ": module " ++ moduleName ++ " unavailable"
  | targetNoContainer target => "augment target " ++ target ++ " is not a data node container"
  | targetNotFound target => "augment target " ++ target ++ " not found"

inductive Cause where
  | noFile
  | notUnicode (fault : Text.Utf8.Fault)
  | badCharacter (code : Nat) (position : Nat)
  | badYaml (problem : Yaml.Problem)
  | noDocuments
  | notMapping
  | noHead
  | invalid (word name : String) (issues : List Issue)
  | statement (word name : String) (finding : Finding)
  | moduleNotFound (name : String)
  deriving DecidableEq, Repr, Inhabited

def Cause.message : Cause → String
  | noFile => "no such file"
  | notUnicode fault => fault.message
  | badCharacter code position =>
    "invalid YAML: unacceptable character #x" ++ Text.hex 4 code
      ++ ": special characters are not allowed\n  in \"<unicode string>\", position "
      ++ toString position
  | badYaml problem => "invalid YAML: " ++ problem.message
  | noDocuments => "no module or submodule documents found"
  | notMapping => "document must be a mapping"
  | noHead => "document must declare 'module' or 'submodule'"
  | invalid word name issues => word ++ " " ++ name ++ ": " ++ describeIssues issues
  | statement word name finding => word ++ " " ++ name ++ ": " ++ finding.message
  | moduleNotFound name => "module not found: " ++ name

structure Diagnostic where
  source : String
  cause : Cause
  deriving DecidableEq, Repr, Inhabited

def Diagnostic.message (d : Diagnostic) : String :=
  if d.source = "" then d.cause.message else d.source ++ ": " ++ d.cause.message

end Yang

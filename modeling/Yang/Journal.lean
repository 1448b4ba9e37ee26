/-!
This module contains the notes that a run keeps of what it does.
-/

namespace Yang

inductive Area where
  | modules
  | resolve
  | pipeline
  | api
  deriving DecidableEq, Repr, Inhabited

def Area.logger : Area → String
  | modules => "schematree.modules"
  | resolve => "schematree.resolve"
  | pipeline => "schematree.pipeline"
  | api => "schematree.api"

inductive Note where
  | loading (name path : String)
  | read (path : String)
  | shadowed (name source first : String)
  | collected (name : String) (documents : Nat)
  | augmenting (target document : String)
  | processed (modules problems : Nat)
  | rendering (names : List String)
  | fallingBack (name file : String)
  deriving DecidableEq, Repr, Inhabited

namespace Note

def area : Note → Area
  | collected .. => .resolve
  | augmenting .. => .resolve
  | rendering _ => .pipeline
  | fallingBack .. => .api
  | _ => .modules

def message : Note → String
  | loading name path => "loading " ++ name ++ " from " ++ path
  | read path => "read " ++ path
  | shadowed name source first => "module " ++ name ++ " from " ++ source ++ " shadowed by " ++ first
  | collected name documents =>
    "collected scope for " ++ name ++ " (" ++ toString documents ++ " documents)"
  | augmenting target document => "augmenting " ++ target ++ " from " ++ document
  | processed modules problems =>
    "processed " ++ toString modules ++ " modules with " ++ toString problems ++ " errors"
  | rendering names => "rendering modules: " ++ ", ".intercalate names
  | fallingBack name file => name ++ " not in sources, reading " ++ file

def level : String := "DEBUG"

def record (note : Note) : String :=
  note.area.logger ++ ": " ++ note.message

end Note

end Yang

import Yang.Text.Blank

/-!
This module contains paths: names separated by slashes. The spelling of a path has no empty names and no names of
the directory itself.
-/

namespace Yang

structure Path where
  root : String
  names : List String
  deriving DecidableEq, Repr, Inhabited

namespace Path

/--
The root that a text starts with: no slash, one, or the two that are kept apart from one. More slashes count as one.
-/
def rootOf : List Char → String
  | ['/', '/'] => "//"
  | '/' :: '/' :: c :: _ => if c = '/' then "/" else "//"
  | '/' :: _ => "/"
  | _ => ""

def ofText (s : String) : Path :=
  ⟨rootOf s.toList, (Text.splitAt '/' s).filter (fun name => name != "" && name != ".")⟩

def text (p : Path) : String :=
  if p.root = "" ∧ p.names = [] then "." else p.root ++ "/".intercalate p.names

def isAbsolute (p : Path) : Bool :=
  p.root != ""

def stages (p : Path) : List Path :=
  (List.range p.names.length).map (fun n => { p with names := p.names.take (n + 1) })

def hasNul (p : Path) : Bool :=
  p.names.any (fun name => name.contains '\x00')

def join (directory path : Path) : Path :=
  if path.isAbsolute then path else { directory with names := directory.names ++ path.names }

end Path

end Yang

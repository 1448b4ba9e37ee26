import Yang.Yaml.Cursor

/-!
This module contains the tokens of a stream.
-/

namespace Yang.Yaml

inductive Directive where
  | version (major minor : Nat)
  | handle (name expansion : String)
  | reserved (name : String)
  deriving DecidableEq, Repr, Inhabited

inductive Mark where
  | streamStart
  | streamEnd
  | directive (content : Directive)
  | documentStart
  | documentEnd
  | blockSequence
  | blockMapping
  | blockEnd
  | flowSequence
  | flowSequenceEnd
  | flowMapping
  | flowMappingEnd
  | blockEntry
  | flowEntry
  | key
  | value
  | aliasOf (name : String)
  | anchor (name : String)
  | tag (handle : Option String) (suffix : String)
  | scalar (text : String) (plain : Bool)
  deriving DecidableEq, Repr, Inhabited

def Mark.name : Mark → String
  | streamStart => "<stream start>"
  | streamEnd => "<stream end>"
  | directive _ => "<directive>"
  | documentStart => "<document start>"
  | documentEnd => "<document end>"
  | blockSequence => "<block sequence start>"
  | blockMapping => "<block mapping start>"
  | blockEnd => "<block end>"
  | flowSequence => "["
  | flowSequenceEnd => "]"
  | flowMapping => "\x7b"
  | flowMappingEnd => "\x7d"
  | blockEntry => "-"
  | flowEntry => ","
  | key => "?"
  | value => ":"
  | aliasOf _ => "<alias>"
  | anchor _ => "<anchor>"
  | tag .. => "<tag>"
  | scalar .. => "<scalar>"

structure Token where
  mark : Mark
  line : Nat
  deriving DecidableEq, Repr, Inhabited

end Yang.Yaml

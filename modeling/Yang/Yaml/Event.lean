import Yang.Yaml.Token

/-!
This module contains the events of a stream: its documents, and in them the scalars, the aliases and the
borders of the collections, each collection's content standing between its borders.
-/

namespace Yang.Yaml

inductive Happening where
  | streamStart
  | streamEnd
  | documentStart
  | documentEnd
  | aliasOf (name : String)
  | scalar (anchor tag : Option String) (plain : Bool) (text : String)
  | sequenceStart (anchor tag : Option String)
  | sequenceEnd
  | mappingStart (anchor tag : Option String)
  | mappingEnd
  deriving DecidableEq, Repr, Inhabited

structure Event where
  what : Happening
  line : Nat
  deriving DecidableEq, Repr, Inhabited

end Yang.Yaml

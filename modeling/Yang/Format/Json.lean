import Yang.Entry
import Yang.Number.Literal
import Yang.Text.Surrogate

/-!
This module contains JSON values, how they are written, and the JSON form of trees.
-/

namespace Yang

inductive Json where
  | bool (b : Bool)
  | whole (n : Int)
  | text (s : String)
  | list (items : List Json)
  | object (members : List (String × Json))
  deriving Repr, Inhabited

namespace Json

mutual

def isWritable (value : Json) : Bool :=
  match value with
  | bool _ => true
  | whole n => (Literal.wholeText? n).isSome
  | text _ => true
  | list items => areWritable items
  | object members => membersAreWritable members

def areWritable (items : List Json) : Bool :=
  match items with
  | [] => true
  | item :: rest => isWritable item && areWritable rest

def membersAreWritable (members : List (String × Json)) : Bool :=
  match members with
  | [] => true
  | (_, value) :: rest => isWritable value && membersAreWritable rest

end

def unit (n : Nat) : String :=
  "\\u" ++ Text.hex 4 n

/--
A code point in a text. Beyond ASCII there are only units, two of them for a character beyond sixteen bits. Half of a
pair is a unit of its own.
-/
def escape (n : Nat) : String :=
  if n = 0x22 then "\\\""
  else if n = 0x5C then "\\\\"
  else if n = 8 then "\\b"
  else if n = 9 then "\\t"
  else if n = 10 then "\\n"
  else if n = 12 then "\\f"
  else if n = 13 then "\\r"
  else if 0x20 ≤ n ∧ n < 0x80 then String.singleton (Char.ofNat n)
  else if n < 0x10000 then unit n
  else unit (0xD800 + (n - 0x10000) / 0x400) ++ unit (0xDC00 + (n - 0x10000) % 0x400)

def quote (s : String) : String :=
  "\"" ++ String.join ((Text.codes s.toList).map escape) ++ "\""

def newline (depth : Nat) : String :=
  "\n" ++ Text.repeated depth "  "

mutual

def render (depth : Nat) (value : Json) : String :=
  match value with
  | bool b => if b then "true" else "false"
  | whole n => toString n
  | text s => quote s
  | list [] => "[]"
  | list (item :: rest) =>
    "[" ++ ",".intercalate (renderItems (depth + 1) (item :: rest)) ++ newline depth ++ "]"
  | object [] => "\x7b\x7d"
  | object (member :: rest) =>
    "\x7b" ++ ",".intercalate (renderMembers (depth + 1) (member :: rest)) ++ newline depth ++ "\x7d"

def renderItems (depth : Nat) (items : List Json) : List String :=
  match items with
  | [] => []
  | item :: rest => (newline depth ++ render depth item) :: renderItems depth rest

def renderMembers (depth : Nat) (members : List (String × Json)) : List String :=
  match members with
  | [] => []
  | (name, value) :: rest =>
    (newline depth ++ quote name ++ ": " ++ render depth value) :: renderMembers depth rest

end

def optional {α : Type} (name : String) (write : α → Json) : Option α → List (String × Json)
  | some a => [(name, write a)]
  | none => []

def when (condition : Bool) (name : String) (value : Json) : List (String × Json) :=
  if condition then [(name, value)] else []

end Json

def Facet.toJson : Facet → Json
  | text s => .text s
  | names list => .list (list.map Json.text)

def ResolvedType.toJson (type : ResolvedType) : Json :=
  let start := [("name", Json.text type.name), ("base", Json.text type.base)]
    ++ Json.when (!type.typedefs.isEmpty) "typedefs" (.list (type.typedefs.map Json.text))
  -- a restriction takes the place of a member of its name, and is replaced in turn
  let restricted := putAll start (type.facets.map (fun p => (p.1, p.2.toJson)))
  .object (putAll restricted (Json.optional "default" .text type.default ++ Json.optional "units" .text type.units))

def EntryHead.members (head : EntryHead) : List (String × Json) :=
  [("name", .text head.name), ("node", .text head.kind.word), ("prefix", .text head.prefixId),
      ("config", .bool head.config)]
    ++ Json.when (head.kind == .module) "namespace" (.text head.uri)
    ++ Json.optional "description" .text (head.description.filter (fun s => s != ""))
    ++ Json.optional "type" ResolvedType.toJson head.type
    ++ Json.when (!head.keys.isEmpty) "key" (.list (head.keys.map Json.text))
    ++ Json.when head.mandatory "mandatory" (.bool true)
    ++ Json.optional "default" .text head.default
    ++ Json.optional "units" .text head.units
    ++ Json.optional "presence" .text head.presence
    ++ Json.optional "min_elements" .whole head.minElements
    ++ Json.optional "max_elements" .whole head.maxElements
    ++ Json.optional "ordered_by" .text head.orderedBy

namespace Entry

mutual

def membersOf (e : Entry) : Json :=
  match e with
  | mk head children =>
    .object (head.members ++ Json.when (!children.isEmpty) "children" (.object (membersOfAll children)))

def membersOfAll (entries : List Entry) : List (String × Json) :=
  match entries with
  | [] => []
  | e :: rest => (e.name, membersOf e) :: membersOfAll rest

end

def toJson (e : Entry) : Json :=
  membersOf e.inOrder

end Entry

inductive FormatFault where
  | tooManyDigits
  deriving DecidableEq, Repr, Inhabited

def FormatFault.message : FormatFault → String
  | tooManyDigits => Literal.limitWords ++ Literal.limitHint

def renderJson (entries : List Entry) : Except FormatFault String :=
  let json := Json.list (entries.map Entry.toJson)
  if json.isWritable then .ok (json.render 0 ++ "\n") else .error .tooManyDigits

end Yang

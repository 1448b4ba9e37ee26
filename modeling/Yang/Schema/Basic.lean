import Yang.Text.Blank

/-!
This module contains the documents of a schema: modules and submodules, and the statements in them.
-/

namespace Yang

/--
Restrictions of a type. An empty list of names is not the same as no list.
-/
structure Restrictions where
  enums : Option (List String)
  range : Option String
  length : Option String
  pattern : Option String
  path : Option String
  deriving DecidableEq, Repr, Inhabited

inductive Facet where
  | text (s : String)
  | names (list : List String)
  deriving DecidableEq, Repr, Inhabited

namespace Restrictions

def free : Restrictions :=
  ⟨none, none, none, none, none⟩

def facets (r : Restrictions) : List (String × Facet) :=
  (r.enums.map (fun names => ("enums", Facet.names names))).toList
    ++ (r.range.map (fun s => ("range", Facet.text s))).toList
    ++ (r.length.map (fun s => ("length", Facet.text s))).toList
    ++ (r.pattern.map (fun s => ("pattern", Facet.text s))).toList
    ++ (r.path.map (fun s => ("path", Facet.text s))).toList

end Restrictions

structure Typedef where
  restrictions : Restrictions
  name : String
  type : String
  description : Option String
  default : Option String
  units : Option String
  deriving DecidableEq, Repr, Inhabited

inductive OrderedBy where
  | system
  | user
  deriving DecidableEq, Repr, Inhabited

def OrderedBy.word : OrderedBy → String
  | system => "system"
  | user => "user"

inductive NodeKind where
  | container
  | list
  | leaf
  | leafList
  | choice
  | case
  | uses
  deriving DecidableEq, Repr, Inhabited

def NodeKind.word : NodeKind → String
  | container => "container"
  | list => "list"
  | leaf => "leaf"
  | leafList => "leaf-list"
  | choice => "choice"
  | case => "case"
  | uses => "uses"

def NodeKind.all : List NodeKind :=
  [container, list, leaf, leafList, choice, case, uses]

def NodeKind.ofWord? (word : String) : Option NodeKind :=
  all.find? (fun kind => kind.word == word)

theorem NodeKind.ofWord?_word (kind : NodeKind) : ofWord? kind.word = some kind := by
  cases kind <;> rfl

structure Container where
  name : String
  description : Option String
  config : Option Bool
  presence : Option String
  deriving DecidableEq, Repr, Inhabited

structure KeyedList where
  name : String
  description : Option String
  config : Option Bool
  key : Option String
  minElements : Option Nat
  maxElements : Option Nat
  orderedBy : OrderedBy
  deriving DecidableEq, Repr, Inhabited

def KeyedList.keys (head : KeyedList) : List String :=
  match head.key with
  | some key => Text.words key
  | none => []

structure Leaf where
  restrictions : Restrictions
  name : String
  type : String
  description : Option String
  config : Option Bool
  mandatory : Bool
  default : Option String
  units : Option String
  deriving DecidableEq, Repr, Inhabited

structure LeafList where
  restrictions : Restrictions
  name : String
  type : String
  description : Option String
  config : Option Bool
  minElements : Option Nat
  maxElements : Option Nat
  orderedBy : OrderedBy
  units : Option String
  deriving DecidableEq, Repr, Inhabited

structure Choice where
  name : String
  description : Option String
  config : Option Bool
  mandatory : Bool
  default : Option String
  deriving DecidableEq, Repr, Inhabited

structure Case where
  name : String
  description : Option String
  deriving DecidableEq, Repr, Inhabited

structure Uses where
  grouping : String
  description : Option String
  deriving DecidableEq, Repr, Inhabited

inductive Node where
  | container (head : Container) (nodes : List Node)
  | list (head : KeyedList) (nodes : List Node)
  | leaf (head : Leaf)
  | leafList (head : LeafList)
  | choice (head : Choice) (cases : List Node)
  | case (head : Case) (nodes : List Node)
  | uses (head : Uses)
  deriving Repr, Inhabited

def Node.kind : Node → NodeKind
  | container .. => .container
  | list .. => .list
  | leaf _ => .leaf
  | leafList _ => .leafList
  | choice .. => .choice
  | case .. => .case
  | uses _ => .uses

def Node.name : Node → String
  | container head _ => head.name
  | list head _ => head.name
  | leaf head => head.name
  | leafList head => head.name
  | choice head _ => head.name
  | case head _ => head.name
  | uses head => head.grouping

def Node.children : Node → List Node
  | container _ nodes => nodes
  | list _ nodes => nodes
  | choice _ cases => cases
  | case _ nodes => nodes
  | _ => []

structure Grouping where
  name : String
  description : Option String
  nodes : List Node
  deriving Repr, Inhabited

structure Import where
  moduleName : String
  prefixId : String
  deriving DecidableEq, Repr, Inhabited

structure Augment where
  target : String
  description : Option String
  nodes : List Node
  deriving Repr, Inhabited

def Augment.segments (augment : Augment) : List String :=
  (Text.splitAt '/' augment.target).filter (fun segment => segment != "")

structure Body where
  prefixId : String
  organization : Option String
  contact : Option String
  description : Option String
  revision : Option String
  imports : List Import
  includes : List String
  typedefs : List Typedef
  groupings : List Grouping
  nodes : List Node
  augments : List Augment
  source : String
  deriving Repr, Inhabited

/--
The modules that prefixes stand for. The last import of a prefix wins and keeps the place of the first.
-/
def Body.importPrefixes (body : Body) : List (String × String) :=
  body.imports.foldl (fun table i => put i.prefixId i.moduleName table) []
where
  put (key value : String) : List (String × String) → List (String × String)
    | [] => [(key, value)]
    | (k, v) :: rest => if k = key then (k, value) :: rest else (k, v) :: put key value rest

structure Module where
  name : String
  uri : String
  body : Body
  deriving Repr, Inhabited

structure Submodule where
  name : String
  owner : String
  body : Body
  deriving Repr, Inhabited

inductive Document where
  | main (content : Module)
  | part (content : Submodule)
  deriving Repr, Inhabited

namespace Document

def name : Document → String
  | main m => m.name
  | part s => s.name

def body : Document → Body
  | main m => m.body
  | part s => s.body

def word : Document → String
  | main _ => "module"
  | part _ => "submodule"

def withSource (source : String) : Document → Document
  | main m => main { m with body := { m.body with source := source } }
  | part s => part { s with body := { s.body with source := source } }

end Document

end Yang

import Yang.Schema.Basic

/-!
This module contains the trees of resolved entries. The children of an entry have different names and stand in the
order in which they were added; whatever is written from a tree has them in the order of their names.
-/

namespace Yang

inductive EntryKind where
  | module
  | container
  | list
  | leaf
  | leafList
  | choice
  | case
  deriving DecidableEq, Repr, Inhabited

namespace EntryKind

def word : EntryKind → String
  | module => "module"
  | container => "container"
  | list => "list"
  | leaf => "leaf"
  | leafList => "leaf-list"
  | choice => "choice"
  | case => "case"

def all : List EntryKind :=
  [module, container, list, leaf, leafList, choice, case]

def ofWord? (word : String) : Option EntryKind :=
  all.find? (fun kind => kind.word == word)

def isLeaf : EntryKind → Bool
  | leaf => true
  | leafList => true
  | _ => false

def isList : EntryKind → Bool
  | list => true
  | leafList => true
  | _ => false

def isGroup : EntryKind → Bool
  | choice => true
  | case => true
  | _ => false

end EntryKind

/--
A type, resolved down to the built-in type it is based on. The references on the way to it are kept, and the values
of its restrictions stand in the order in which they were first set.
-/
structure ResolvedType where
  name : String
  base : String
  facets : List (String × Facet)
  typedefs : List String
  default : Option String
  units : Option String
  deriving DecidableEq, Repr, Inhabited

/--
Set a value in a table. A name that is there keeps its place.
-/
def put {α : Type} (name : String) (value : α) : List (String × α) → List (String × α)
  | [] => [(name, value)]
  | (n, v) :: rest => if n = name then (n, value) :: rest else (n, v) :: put name value rest

def putAll {α : Type} (table more : List (String × α)) : List (String × α) :=
  more.foldl (fun t p => put p.1 p.2 t) table

theorem lookup_put_self {α : Type} (name : String) (value : α) (table : List (String × α)) :
    (put name value table).lookup name = some value := by
  induction table with
  | nil => simp [put]
  | cons p rest ih =>
    obtain ⟨n, v⟩ := p
    unfold put
    split
    · next h => simp [h]
    · next h => simp [List.lookup_cons, beq_eq_false_iff_ne.2 (Ne.symm h), ih]

theorem lookup_put_of_ne {α : Type} {name other : String} (value : α) (table : List (String × α))
    (h : other ≠ name) : (put name value table).lookup other = table.lookup other := by
  induction table with
  | nil => simp [put, List.lookup_cons, beq_eq_false_iff_ne.2 h]
  | cons p rest ih =>
    obtain ⟨n, v⟩ := p
    unfold put
    split
    · next hn => subst hn; simp [List.lookup_cons, beq_eq_false_iff_ne.2 h]
    · simp only [List.lookup_cons, ih]

structure EntryHead where
  name : String
  kind : EntryKind
  prefixId : String
  uri : String
  description : Option String
  config : Bool
  type : Option ResolvedType
  keys : List String
  mandatory : Bool
  default : Option String
  units : Option String
  presence : Option String
  minElements : Option Int
  maxElements : Option Int
  orderedBy : Option String
  deriving DecidableEq, Repr, Inhabited

namespace EntryHead

def plain (name : String) (kind : EntryKind) (prefixId uri : String) : EntryHead :=
  ⟨name, kind, prefixId, uri, none, true, none, [], false, none, none, none, none, none, none⟩

def qualifiedName (head : EntryHead) : String :=
  head.prefixId ++ ":" ++ head.name

end EntryHead

inductive Entry where
  | mk (head : EntryHead) (children : List Entry)
  deriving Repr, Inhabited

namespace Entry

def head : Entry → EntryHead
  | mk head _ => head

def children : Entry → List Entry
  | mk _ children => children

def name (e : Entry) : String :=
  e.head.name

def named? (name : String) (entries : List Entry) : Option Entry :=
  entries.find? (fun e => e.name == name)

def child? (e : Entry) (name : String) : Option Entry :=
  named? name e.children

def addTo (entry : Entry) : List Entry → List Entry
  | [] => [entry]
  | e :: rest => if e.name = entry.name then entry :: rest else e :: addTo entry rest

def descend? (e : Entry) : List String → Option Entry
  | [] => some e
  | name :: rest => (e.child? name).bind (fun c => c.descend? rest)

mutual

/--
Give other children to the entry along names.
-/
def regrow (grown : List Entry) (names : List String) (e : Entry) : Entry :=
  match names, e with
  | [], mk head _ => mk head grown
  | name :: rest, mk head children => mk head (regrowIn grown name rest children)

def regrowIn (grown : List Entry) (name : String) (names : List String) (entries : List Entry) :
    List Entry :=
  match entries with
  | [] => []
  | e :: others =>
    if e.name = name then
      regrow grown names e :: others
    else
      e :: regrowIn grown name names others

end

mutual

def inOrder (e : Entry) : Entry :=
  match e with
  | mk head children => mk head ((inOrderAll children).mergeSort (fun a b => decide (a.name ≤ b.name)))

def inOrderAll (entries : List Entry) : List Entry :=
  match entries with
  | [] => []
  | e :: rest => inOrder e :: inOrderAll rest

end

/--
An entry on a walk, with the entries above it, the nearest one first.
-/
structure Visit where
  head : EntryHead
  above : List EntryHead
  deriving Repr, Inhabited

mutual

def visits (above : List EntryHead) (e : Entry) : List Visit :=
  match e with
  | mk head children => ⟨head, above⟩ :: visitsAll (head :: above) children

def visitsAll (above : List EntryHead) (entries : List Entry) : List Visit :=
  match entries with
  | [] => []
  | e :: rest => visits above e ++ visitsAll above rest

end

def walk (e : Entry) : List Visit :=
  visits [] e.inOrder

def Visit.way (v : Visit) : List EntryHead :=
  ((v.head :: v.above).takeWhile (fun head => head.kind != .module)).reverse

def pathText (names : List String) : String :=
  "/" ++ "/".intercalate names

def Visit.path (v : Visit) : String :=
  pathText (v.way.map EntryHead.qualifiedName)

def Visit.dataPath (v : Visit) : String :=
  pathText ((v.way.filter (fun head => !head.kind.isGroup)).map EntryHead.qualifiedName)

end Entry

end Yang

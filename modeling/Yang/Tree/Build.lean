import Yang.Tree.Typing

/-!
This module contains the building of trees from nodes. A node that has no place in the tree is left out and reported.
A reference to a grouping is replaced by the nodes of the grouping, whose names are read in the document of the
grouping but belong to the module of the tree.
-/

namespace Yang

def NodeKind.entryKind : NodeKind → EntryKind
  | container => .container
  | list => .list
  | leaf => .leaf
  | leafList => .leafList
  | choice => .choice
  | case => .case
  | uses => .container

structure Spot where
  head : EntryHead
  above : List EntryHead
  deriving Repr, Inhabited

namespace Spot

def down (spot : Spot) (head : EntryHead) : Spot :=
  ⟨head, spot.head :: spot.above⟩

def text (spot : Spot) : String :=
  if spot.head.kind = .module then spot.head.name else (Entry.Visit.mk spot.head spot.above).path

end Spot

structure Owner where
  prefixId : String
  uri : String
  deriving DecidableEq, Repr, Inhabited

def Module.asOwner (m : Module) : Owner :=
  ⟨m.body.prefixId, m.uri⟩

def Module.head (m : Module) : EntryHead :=
  { EntryHead.plain m.name .module m.body.prefixId m.uri with description := m.body.description }

namespace Node

def config : Node → Option Bool
  | container head _ => head.config
  | list head _ => head.config
  | leaf head => head.config
  | leafList head => head.config
  | choice head _ => head.config
  | _ => none

def description : Node → Option String
  | container head _ => head.description
  | list head _ => head.description
  | leaf head => head.description
  | leafList head => head.description
  | choice head _ => head.description
  | case head _ => head.description
  | uses head => head.description

def typed? : Node → Option (String × Restrictions)
  | leaf head => some (head.type, head.restrictions)
  | leafList head => some (head.type, head.restrictions)
  | _ => none

def misplaced? (node : Node) (spot : Spot) (siblings : List Entry) : Option Finding :=
  if node.kind = .case ∧ spot.head.kind ≠ .choice then
    some (.strayCase node.name)
  else if spot.head.kind = .choice ∧ node.kind ≠ .case then
    some (.noCase node.kind node.name)
  else if (Entry.named? node.name siblings).isSome then
    some (.duplicateNode node.name spot.text)
  else
    none

def filled? (s : Option String) : Option String :=
  s.filter (fun s => s != "")

def makeHead (node : Node) (owner : Owner) (writable : Bool) (type : Option ResolvedType) : EntryHead :=
  let plain : EntryHead :=
    { EntryHead.plain node.name node.kind.entryKind owner.prefixId owner.uri with
      description := node.description
      config := node.config.getD writable
      type := type }
  match node with
  | container head _ => { plain with presence := head.presence }
  | list head _ =>
    { plain with
      keys := head.keys
      minElements := head.minElements.map Int.ofNat
      maxElements := head.maxElements.map Int.ofNat
      orderedBy := some head.orderedBy.word }
  | leaf head =>
    { plain with
      mandatory := head.mandatory
      default := head.default.or (if head.mandatory then none else type.bind ResolvedType.default)
      units := (filled? head.units).or (type.bind ResolvedType.units) }
  | leafList head =>
    { plain with
      minElements := head.minElements.map Int.ofNat
      maxElements := head.maxElements.map Int.ofNat
      orderedBy := some head.orderedBy.word
      units := (filled? head.units).or (type.bind ResolvedType.units) }
  | choice head _ => { plain with mandatory := head.mandatory, default := head.default }
  | _ => plain

def hasFacet (type : ResolvedType) (name : String) : Bool :=
  match type.facets.lookup name with
  | some (.text s) => s != ""
  | some (.names names) => !names.isEmpty
  | none => false

def typeFindings (kind : NodeKind) (name : String) (type : ResolvedType) : List Finding :=
  (if type.base = "enumeration" ∧ !hasFacet type "enums" then [.noEnums kind name] else [])
    ++ (if type.base = "leafref" ∧ !hasFacet type "path" then [.noPath kind name] else [])

def keyFindings (name : String) (writable : Bool) (keys : List String) (children : List Entry) : List Finding :=
  (keys.filter (fun key => !(Entry.named? key children).any (fun e => e.head.kind == .leaf))).map
      (fun key => .noKeyLeaf name key)
    ++ (if writable ∧ keys = [] then [.noKey name] else [])

def findings (node : Node) (head : EntryHead) (children : List Entry) : List Finding :=
  match node with
  | leaf l =>
    (if l.mandatory ∧ l.default.isSome then [.mandatoryWithDefault l.name] else [])
      ++ (head.type.map (typeFindings .leaf l.name)).getD []
  | leafList l => (head.type.map (typeFindings .leafList l.name)).getD []
  | list l _ => keyFindings l.name head.config l.keys children
  | choice c _ =>
    match c.default with
    | some default =>
      if (Entry.named? default children).isSome then [] else [.noSuchCase c.name default]
    | none => []
  | _ => []

theorem sizeOf_children_lt (node : Node) : sizeOf node.children < sizeOf node := by
  cases node with
  | container head nodes => simp only [children, container.sizeOf_spec]; omega
  | list head nodes => simp only [children, list.sizeOf_spec]; omega
  | choice head cases => simp only [children, choice.sizeOf_spec]; omega
  | case head nodes => simp only [children, case.sizeOf_spec]; omega
  | leaf head => cases head; simp only [children, leaf.sizeOf_spec, Leaf.mk.sizeOf_spec, List.nil.sizeOf_spec]; omega
  | leafList head =>
    cases head
    simp only [children, leafList.sizeOf_spec, LeafList.mk.sizeOf_spec, List.nil.sizeOf_spec]
    omega
  | uses head =>
    cases head
    simp only [children, uses.sizeOf_spec, Uses.mk.sizeOf_spec, List.nil.sizeOf_spec]
    omega

end Node

namespace Scopes

def makeHead (scopes : Scopes) (spot : Spot) (context : Context) (owner : Owner) (node : Node) (w : Work) :
    EntryHead × Work :=
  let w :=
    if node.config = some true ∧ spot.head.config = false then
      w.report context (.writableUnderState node.kind node.name)
    else
      w
  match node.typed? with
  | some (reference, declared) =>
    let (type, w) := scopes.typeOf [] context reference declared w
    (node.makeHead owner spot.head.config type, w)
  | none => (node.makeHead owner spot.head.config none, w)

/--
Add the entries of nodes to the children of an entry.
-/
def addNodes (scopes : Scopes) (inside : List DefinitionKey) (spot : Spot) (context : Context) (owner : Owner)
    (nodes : List Node) (children : List Entry) (w : Work) : List Entry × Work :=
  match nodes with
  | [] => (children, w)
  | .uses head :: rest =>
    let (children, w) :=
      match _h : (scopes.resolve context head.grouping : Except Finding (Located Grouping)) with
      | .error finding => (children, w.report context finding)
      | .ok found =>
        if _hn : inside.contains found.key = true then
          (children, w.report context (.recursive .grouping found.definition.name))
        else
          addNodes scopes (found.key :: inside) spot found.context owner found.definition.nodes children w
    addNodes scopes inside spot context owner rest children w
  | node :: rest =>
    let (children, w) :=
      match node.misplaced? spot children with
      | some finding => (children, w.report context finding)
      | none =>
        let (head, w) := scopes.makeHead spot context owner node w
        -- what is inside of the node is reported before what is wrong with the node itself
        let (inner, w) := addNodes scopes inside (spot.down head) context owner node.children [] w
        (children ++ [.mk head inner], w.reportAll context (node.findings head inner))
    addNodes scopes inside spot context owner rest children w
termination_by (scopes.remaining Grouping inside, sizeOf nodes)
decreasing_by
  · simp only [Prod.lex_def]
    exact Or.inl (remaining_lt (mem_definitions_of_resolve _h) (by simpa using _hn))
  · simp only [Prod.lex_def]
    exact Or.inr ⟨trivial, by simp only [List.cons.sizeOf_spec]; omega⟩
  · simp only [Prod.lex_def]
    refine Or.inr ⟨trivial, ?_⟩
    have := node.sizeOf_children_lt
    simp only [List.cons.sizeOf_spec]
    omega
  · simp only [Prod.lex_def]
    exact Or.inr ⟨trivial, by simp only [List.cons.sizeOf_spec]; omega⟩

def addDocuments (scopes : Scopes) (spot : Spot) (owner : Owner) :
    List Context → List Entry → Work → List Entry × Work
  | [], children, w => (children, w)
  | context :: rest, children, w =>
    let (children, w) := scopes.addNodes [] spot context owner context.document.body.nodes children w
    addDocuments scopes spot owner rest children w

/--
Resolve derived types, whether something refers to them or not.
-/
def settle (scopes : Scopes) (found : List (Located Typedef))
    (isThere : ∀ l ∈ found, l ∈ scopes.definitions Typedef) (w : Work) : Work :=
  match found with
  | [] => w
  | l :: rest =>
    let w := (scopes.typeOfTypedef [] l (isThere l List.mem_cons_self) w).2
    settle scopes rest (fun l h => isThere l (List.mem_cons_of_mem _ h)) w

theorem mem_definitions_of_mem_firsts {scopes : Scopes} {scope : Scope} (hs : scope ∈ scopes)
    {l : Located Typedef} (h : l ∈ scope.firsts Typedef) : l ∈ scopes.definitions Typedef :=
  List.mem_flatMap.2 ⟨scope, hs, Scope.mem_definitions_of_mem_firsts h⟩

def build (scopes : Scopes) (scope : Scope) (isThere : scope ∈ scopes) (w : Work) : Entry × Work :=
  let main := scope.main
  let (children, w) := scopes.addDocuments ⟨main.head, []⟩ main.asOwner scope.contexts [] w
  (.mk main.head children,
    scopes.settle (scope.firsts Typedef) (fun _ h => mem_definitions_of_mem_firsts isThere h) w)

def buildAll (scopes : Scopes) (list : List Scope) (isThere : ∀ scope ∈ list, scope ∈ scopes) (w : Work) :
    List Entry × Work :=
  match list with
  | [] => ([], w)
  | scope :: rest =>
    let (tree, w) := scopes.build scope (isThere scope List.mem_cons_self) w
    let (trees, w) := buildAll scopes rest (fun s h => isThere s (List.mem_cons_of_mem _ h)) w
    (tree :: trees, w)

end Scopes

end Yang

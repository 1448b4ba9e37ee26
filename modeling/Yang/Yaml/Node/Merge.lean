import Yang.Yaml.Node

/-!
This module contains the merging of mappings into others. A merge key gives a mapping the entries of the mappings under
it, in front of its own. Merging changes the nodes themselves, so whatever else names them sees them merged.
-/

namespace Yang.Yaml

namespace Graph

def isMerge (g : Graph) (entry : Nat × Nat) : Bool :=
  (g.node entry.1).tag == coreTag "merge"

def takeMerge? (g : Graph) (i : Nat) : Option (Nat × Graph) :=
  let entries := g.entries i
  (entries.find? g.isMerge).map fun (_, value) =>
    (value, g.setContent i (.mapping (entries.eraseP g.isMerge)))

def settleKeys (g : Graph) : List (Nat × Nat) → Graph
  | [] => g
  | (key, _) :: rest =>
    let g := if (g.node key).tag == coreTag "value" then g.setTag key (coreTag "str") else g
    settleKeys g rest

def settle (g : Graph) (i : Nat) (front : List (Nat × Nat)) : Graph :=
  let entries := g.entries i
  (g.settleKeys entries).setContent i (.mapping (front ++ entries))

def mergedItems (flatten : Graph → Nat → Except Fault Graph) (g : Graph) :
    List Nat → Except Fault (List (Nat × Nat) × Graph)
  | [] => .ok ([], g)
  | item :: rest =>
    let node := g.node item
    match node.content with
    | .mapping _ => do
      let g ← flatten g item
      let first := g.entries item
      let (later, g) ← mergedItems flatten g rest
      -- the last value of a key counts, which has to be that of the first mapping
      return (later ++ first, g)
    | content => .error (.problem (.mergeItem content.shape) node.line)

def merged (flatten : Graph → Nat → Except Fault Graph) (g : Graph) (value : Nat) :
    Except Fault (List (Nat × Nat) × Graph) :=
  let node := g.node value
  match node.content with
  | .mapping _ => do
    let g ← flatten g value
    return (g.entries value, g)
  | .sequence items => mergedItems flatten g items
  | content => .error (.problem (.mergeValue content.shape) node.line)

/--
Resolve the merge keys of a mapping. `front` holds the entries of those resolved before. Every step takes a merge key
out of the graph and none puts one in, so as many steps are enough as there are merge keys.
-/
def flattenFrom (g : Graph) (i : Nat) (front : List (Nat × Nat)) : Nat → Except Fault Graph
  | 0 => .ok (g.settle i front)
  | steps + 1 =>
    match g.takeMerge? i with
    | none => .ok (g.settle i front)
    | some (value, g) => do
      let (more, g) ← merged (fun g j => flattenFrom g j [] steps) g value
      flattenFrom g i (front ++ more) steps

def mergeCount (g : Graph) : Nat :=
  g.nodes.foldl (fun count node =>
    match node.content with
    | .mapping entries => count + (entries.filter g.isMerge).length
    | _ => count) 0

def flatten (g : Graph) (i : Nat) : Except Fault Graph :=
  if (g.entries i).any g.isMerge then g.flattenFrom i [] g.mergeCount else .ok (g.settle i [])

end Graph

end Yang.Yaml

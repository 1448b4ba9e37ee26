import Yang.Yaml.Node.Merge
import Yang.Yaml.Value.Scalar
import Yang.Yaml.Value.Seat
import Yang.Yaml.Value.Unroll

/-!
This module contains the values of nodes. Every node gets its value once, however often it is named: scalars at once,
and collections in the order in which they are met, the contents of a collection after everything that stands beside it.
-/

namespace Yang.Yaml

inductive TagKind where
  | scalar (tag : ScalarTag)
  | sequence
  | mapping
  | set
  | pairs
  deriving DecidableEq, Repr, Inhabited

def coreTags : List (String × TagKind) :=
  [("null", .scalar .null), ("bool", .scalar .bool), ("int", .scalar .int), ("float", .scalar .float),
    ("binary", .scalar .binary), ("timestamp", .scalar .timestamp), ("str", .scalar .str),
    ("seq", .sequence), ("map", .mapping), ("set", .set), ("omap", .pairs), ("pairs", .pairs)]

def tagKind? (tag : String) : Option TagKind :=
  (coreTags.find? (fun (name, _) => coreTag name == tag)).map Prod.snd

namespace Graph

def scalarText (g : Graph) (i : Nat) : Nat → Except Fault String
  | 0 => .error (.problem (.shapeExpected .scalar (g.node i).content.shape) (g.node i).line)
  | steps + 1 =>
    let node := g.node i
    let refused := Except.error (.problem (.shapeExpected .scalar node.content.shape) node.line)
    match node.content with
    | .scalar text => .ok text
    -- a mapping stands for what is under its default key
    | .mapping entries =>
      match entries.find? (fun (key, _) => (g.node key).tag == coreTag "value") with
      | some (_, value) => scalarText g value steps
      | none => refused
    | .sequence _ => refused

end Graph

structure Slot where
  made : Made
  isNamedNan : Bool
  deriving Repr, Inhabited

/--
The state of the building: the nodes, the values so far, and the collections that are met but not filled yet, the last
first.
-/
structure Builder where
  graph : Graph
  slots : Array (Option Slot)
  waiting : List (Nat × TagKind)
  deriving Inhabited

namespace Builder

def slot? (b : Builder) (i : Nat) : Option Slot :=
  b.slots.getD i none

def put (b : Builder) (i : Nat) (made : Made) (isNamedNan : Bool) : Builder :=
  { b with slots := b.slots.setIfInBounds i (some ⟨made, isNamedNan⟩) }

def refuseShape {α : Type} (b : Builder) (i : Nat) (expected : Shape) : Except Fault α :=
  let node := b.graph.node i
  .error (.problem (.shapeExpected expected node.content.shape) node.line)

def scalar (b : Builder) (i : Nat) (tag : ScalarTag) : Except Fault Builder := do
  let node := b.graph.node i
  let text ← b.graph.scalarText i (b.graph.nodes.size + 1)
  if tag = .timestamp ∧ node.content.shape ≠ .scalar then
    .error (.scalar .timestampShape)
  else
    return b.put i (.leaf (← tag.value text node.line)) (tag.isNamedNan text)

def meet (b : Builder) (i : Nat) : Except Fault Builder :=
  if (b.slot? i).isSome then
    .ok b
  else
    let node := b.graph.node i
    match tagKind? node.tag with
    | none => .error (.problem (.unknownTag node.tag) node.line)
    | some (.scalar tag) => b.scalar i tag
    | some kind => .ok { b.put i (.sequence []) false with waiting := (i, kind) :: b.waiting }

def leaf? (b : Builder) (i : Nat) : Option Value :=
  match (b.slot? i).map Slot.made with
  | some (.leaf value) => some value
  | _ => none

def sameKey (b : Builder) (i j : Nat) : Bool :=
  -- the number that is none equals itself only by its name, or as the same node
  i == j
    || ((b.slot? i).any Slot.isNamedNan && (b.slot? j).any Slot.isNamedNan)
    || (b.leaf? i).any (fun x => (b.leaf? j).any x.sameKey)

def insert (b : Builder) (key value : Nat) : List (Nat × Nat) → List (Nat × Nat)
  | [] => [(key, value)]
  | (k, v) :: rest =>
    if b.sameKey k key then (k, value) :: rest else (k, v) :: insert b key value rest

def entries (b : Builder) (found : List (Nat × Nat)) :
    List (Nat × Nat) → Except Fault (List (Nat × Nat) × Builder)
  | [] => .ok (found, b)
  | (key, value) :: rest => do
    let b ← b.meet key
    if (b.leaf? key).isNone then
      .error (.problem .unhashableKey (b.graph.node key).line)
    else
      let b ← b.meet value
      entries b (b.insert key value found) rest

def pairs (b : Builder) : List Nat → Except Fault (List (Nat × Nat) × Builder)
  | [] => .ok ([], b)
  | item :: rest =>
    let node := b.graph.node item
    match node.content with
    | .mapping [(key, value)] => do
      let b ← b.meet key
      let b ← b.meet value
      let (more, b) ← pairs b rest
      return ((key, value) :: more, b)
    | .mapping entries => .error (.problem (.pairCount entries.length) node.line)
    | content => .error (.problem (.pairExpected content.shape) node.line)

def flatEntries (b : Builder) (i : Nat) : Except Fault (List (Nat × Nat) × Builder) := do
  let graph ← b.graph.flatten i
  entries { b with graph := graph } [] (graph.entries i)

def members (b : Builder) (keys : List Nat) : List Nat :=
  match keys.mapM (fun i => (b.leaf? i).bind Seat.residue?) with
  | some residues => Seat.order (residues.zip keys)
  | none => keys

def fill (b : Builder) (i : Nat) (kind : TagKind) : Except Fault Builder :=
  let node := b.graph.node i
  match kind, node.content with
  | .sequence, .sequence items => do
    return (← items.foldlM meet b).put i (.sequence items) false
  | .sequence, _ => b.refuseShape i .sequence
  | .mapping, .mapping _ => do
    let (entries, b) ← b.flatEntries i
    return b.put i (.mapping entries) false
  | .mapping, _ => b.refuseShape i .mapping
  | .set, .mapping _ => do
    let (entries, b) ← b.flatEntries i
    return b.put i (.set (b.members (entries.map Prod.fst))) false
  | .set, _ => b.refuseShape i .mapping
  | .pairs, .sequence items => do
    let (found, b) ← b.pairs items
    return b.put i (.pairs found) false
  | .pairs, content => .error (.problem (.pairsExpected content.shape) node.line)
  | .scalar _, _ => .ok b

/--
Fill the collections that are waiting, and those that are met on the way, in the order in which they were met. A
collection waits once.
-/
def fillAll (b : Builder) : Nat → Except Fault Builder
  | 0 => .ok b
  | steps + 1 =>
    match b.waiting.reverse with
    | [] => .ok b
    | batch => do
      let b ← batch.foldlM (fun b (i, kind) => b.fill i kind) { b with waiting := [] }
      fillAll b steps

def value (b : Builder) (i : Nat) : Value :=
  let made := b.slots.map (fun slot => (slot.map Slot.made).getD default)
  (Values.unroll made b.graph.ended.reverse).part i

end Builder

namespace Graph

def value (g : Graph) (root : Nat) : Except Fault Value := do
  let b ← Builder.meet ⟨g, Array.replicate g.nodes.size none, []⟩ root
  return (← b.fillAll (g.nodes.size + 1)).value root

end Graph

end Yang.Yaml

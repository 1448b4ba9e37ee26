import Yang.Yaml.Node

/-!
This module contains the composition of nodes from events: collections are closed, scalars get their tags, and
aliases are resolved.
-/

namespace Yang.Yaml

/--
The state of the composition: the events ahead and the fault behind them, the nodes so far, and those of them that
have an anchor.
-/
structure Composer where
  ahead : List Event
  fault : Option Fault
  graph : Graph
  anchors : List (String × Nat)
  deriving Inhabited

namespace Composer

def peek (c : Composer) : Except Fault Event :=
  match c.ahead with
  | event :: _ => .ok event
  | [] =>
    match c.fault with
    | some fault => .error fault
    | none => .ok ⟨.streamEnd, 0⟩

def advance (c : Composer) : Composer :=
  { c with ahead := c.ahead.tail }

def checkAnchor (c : Composer) (anchor : Option String) (line : Nat) : Except Fault Unit :=
  match anchor with
  | none => .ok ()
  | some name =>
    if (c.anchors.lookup name).isSome then .error (.problem .secondAnchor line) else .ok ()

def begin (c : Composer) (anchor : Option String) (node : Node) : Except Fault (Nat × Composer) := do
  c.checkAnchor anchor node.line
  let i := c.graph.nodes.size
  let anchors := anchor.toList.map (·, i) ++ c.anchors
  return (i, { c.advance with graph := c.graph.begin node, anchors := anchors })

def finish (c : Composer) (i : Nat) (content : Content) : Composer :=
  { c with graph := c.graph.finish i content }

def tagOr (tag : Option String) (implicit : String) : String :=
  match tag with
  | none => coreTag implicit
  | some tag => if tag == "!" then coreTag implicit else tag

mutual

def node (c : Composer) : Nat → Except Fault (Nat × Composer)
  | 0 => return (0, c)
  | fuel + 1 => do
    let event ← c.peek
    match event.what with
    | .aliasOf name =>
      match c.anchors.lookup name with
      | none => .error (.problem (.undefinedAlias name) event.line)
      | some i => return (i, c.advance)
    | .scalar anchor tag plain text =>
      let tag := tagOr tag (if plain then implicitName text else "str")
      let (i, c) ← c.begin anchor ⟨tag, event.line, .scalar text⟩
      return (i, c.finish i (.scalar text))
    | .sequenceStart anchor tag =>
      -- an alias may name a collection that is not closed yet
      let (i, c) ← c.begin anchor ⟨tagOr tag "seq", event.line, .sequence []⟩
      let (items, c) ← items c fuel
      return (i, c.finish i (.sequence items))
    | .mappingStart anchor tag =>
      let (i, c) ← c.begin anchor ⟨tagOr tag "map", event.line, .mapping []⟩
      let (entries, c) ← entries c fuel
      return (i, c.finish i (.mapping entries))
    | _ => return (0, c.advance)

def items (c : Composer) : Nat → Except Fault (List Nat × Composer)
  | 0 => return ([], c)
  | fuel + 1 => do
    let event ← c.peek
    if event.what == .sequenceEnd then
      return ([], c.advance)
    else
      let (item, c) ← node c fuel
      let (rest, c) ← items c fuel
      return (item :: rest, c)

def entries (c : Composer) : Nat → Except Fault (List (Nat × Nat) × Composer)
  | 0 => return ([], c)
  | fuel + 1 => do
    let event ← c.peek
    if event.what == .mappingEnd then
      return ([], c.advance)
    else
      let (key, c) ← node c fuel
      let (value, c) ← node c fuel
      let (rest, c) ← entries c fuel
      return ((key, value) :: rest, c)

end

def document (c : Composer) : Except Fault (Nat × Graph × Composer) := do
  let (root, c) ← c.node (2 * c.ahead.length + 2)
  let _ ← c.peek
  return (root, c.graph, { c.advance with graph := .empty, anchors := [] })

end Composer

end Yang.Yaml

import Yang.Yaml.Tag

/-!
This module contains the nodes of a document. They form a graph: a collection names the nodes inside of it by their
numbers, so an alias makes one node part of several collections, or of itself.
-/

namespace Yang.Yaml

inductive Content where
  | scalar (text : String)
  | sequence (items : List Nat)
  | mapping (entries : List (Nat × Nat))
  deriving DecidableEq, Repr, Inhabited

def Content.shape : Content → Shape
  | scalar _ => .scalar
  | sequence _ => .sequence
  | mapping _ => .mapping

structure Node where
  tag : String
  line : Nat
  content : Content
  deriving DecidableEq, Repr, Inhabited

structure Graph where
  nodes : Array Node
  ended : List Nat
  deriving Repr, Inhabited

namespace Graph

def empty : Graph :=
  ⟨#[], []⟩

def node (g : Graph) (i : Nat) : Node :=
  g.nodes.getD i default

def begin (g : Graph) (node : Node) : Graph :=
  { g with nodes := g.nodes.push node }

def finish (g : Graph) (i : Nat) (content : Content) : Graph :=
  { nodes := g.nodes.modify i ({ · with content := content }), ended := i :: g.ended }

def setContent (g : Graph) (i : Nat) (content : Content) : Graph :=
  { g with nodes := g.nodes.modify i ({ · with content := content }) }

def setTag (g : Graph) (i : Nat) (tag : String) : Graph :=
  { g with nodes := g.nodes.modify i ({ · with tag := tag }) }

def entries (g : Graph) (i : Nat) : List (Nat × Nat) :=
  match (g.node i).content with
  | .mapping entries => entries
  | _ => []

end Graph

end Yang.Yaml

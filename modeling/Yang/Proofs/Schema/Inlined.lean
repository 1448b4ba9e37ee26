import Yang.Proofs.Schema.Reordered

/-!
This module contains documents in which references to a grouping are replaced by its nodes. Such documents are alike to
whoever gathers scopes.
-/

namespace Yang

namespace Node

/--
Whether nodes are the same but for references to a grouping, at any depth, that are replaced in place by given nodes.
-/
inductive Inlined (head : Uses) (given : List Node) : List Node → List Node → Prop
  | nil : Inlined head given [] []
  | cons {node node' : Node} {rest rest' : List Node} (hbare : node.bare = node'.bare)
    (hchildren : Inlined head given node.children node'.children) (hrest : Inlined head given rest rest') :
    Inlined head given (node :: rest) (node' :: rest')
  | uses {rest rest' : List Node} (hrest : Inlined head given rest rest') :
    Inlined head given (.uses head :: rest) (given ++ rest')

theorem Inlined.refl (head : Uses) (given nodes : List Node) : Inlined head given nodes nodes := by
  match nodes with
  | [] => exact .nil
  | node :: rest => exact .cons rfl (refl head given node.children) (refl head given rest)
termination_by sizeOf nodes
decreasing_by
  · have hlt := node.sizeOf_children_lt
    simp only [List.cons.sizeOf_spec]
    omega
  · simp only [List.cons.sizeOf_spec]
    omega

end Node

structure Grouping.Inlined (head : Uses) (given : List Node) (grouping grouping' : Grouping) : Prop where
  name : grouping.name = grouping'.name
  description : grouping.description = grouping'.description
  nodes : Node.Inlined head given grouping.nodes grouping'.nodes

structure Augment.Inlined (head : Uses) (given : List Node) (augment augment' : Augment) : Prop where
  target : augment.target = augment'.target
  description : augment.description = augment'.description
  nodes : Node.Inlined head given augment.nodes augment'.nodes

theorem Grouping.Inlined.refl (head : Uses) (given : List Node) (grouping : Grouping) :
    grouping.Inlined head given grouping :=
  ⟨rfl, rfl, .refl _ _ _⟩

theorem Augment.Inlined.refl (head : Uses) (given : List Node) (augment : Augment) :
    augment.Inlined head given augment :=
  ⟨rfl, rfl, .refl _ _ _⟩

namespace Document

/--
Whether two documents are the same but for references to a grouping that are replaced in place by given nodes, anywhere
in the nodes, groupings and augments of the document.
-/
structure Inlined (head : Uses) (given : List Node) (d d' : Document) : Prop where
  outline : d.outline = d'.outline
  typedefs : d.body.typedefs = d'.body.typedefs
  groupings : List.Forall₂ (Grouping.Inlined head given) d.body.groupings d'.body.groupings
  nodes : Node.Inlined head given d.body.nodes d'.body.nodes
  augments : List.Forall₂ (Augment.Inlined head given) d.body.augments d'.body.augments

theorem Inlined.refl (head : Uses) (given : List Node) (d : Document) : d.Inlined head given d where
  outline := rfl
  typedefs := rfl
  groupings := List.forall₂_same.2 fun grouping _ => .refl head given grouping
  nodes := .refl head given _
  augments := List.forall₂_same.2 fun augment _ => .refl head given augment

def Replaced (old new d d' : Document) : Prop :=
  d = d' ∨ d = old ∧ d' = new

variable {head : Uses} {given : List Node} {old new d d' : Document}

theorem Replaced.inlined (h : old.Inlined head given new) (hr : Replaced old new d d') : d.Inlined head given d' := by
  rcases hr with rfl | ⟨rfl, rfl⟩
  · exact .refl head given d
  · exact h

theorem likeness_replaced (h : old.Inlined head given new) : Likeness True (Replaced old new) where
  refl := fun _ => .inl rfl
  outline := fun hr => (hr.inlined h).outline
  typedefs := by
    intro d d' hr
    rw [(hr.inlined h).typedefs]
    exact ⟨.refl _, fun _ => rfl⟩
  groupings := by
    intro d d' hr
    have hnames : d.body.groupings.map Grouping.name = d'.body.groupings.map Grouping.name := by
      rw [← List.forall₂_eq_eq_eq, List.forall₂_map_left_iff, List.forall₂_map_right_iff]
      exact (hr.inlined h).groupings.imp fun _ _ hg => hg.name
    rw [hnames]
    exact ⟨.refl _, fun _ => rfl⟩

end Document

end Yang

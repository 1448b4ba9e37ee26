import Mathlib.Data.List.Perm.Basic
import Yang.Proofs.Gather.Alike
import Yang.Tree.Build

/-!
This module contains documents whose statements stand in another order: nodes at any depth, and the definitions and
augments of a document. Such documents are alike to whoever gathers scopes.
-/

namespace Yang

namespace Node

def bare : Node → Node
  | container head _ => container head []
  | list head _ => list head []
  | choice head _ => choice head []
  | case head _ => case head []
  | node => node

theorem kind_bare (node : Node) : node.bare.kind = node.kind := by
  cases node <;> rfl

theorem name_bare (node : Node) : node.bare.name = node.name := by
  cases node <;> rfl

theorem config_bare (node : Node) : node.bare.config = node.config := by
  cases node <;> rfl

theorem typed?_bare (node : Node) : node.bare.typed? = node.typed? := by
  cases node <;> rfl

theorem misplaced?_bare (node : Node) : node.bare.misplaced? = node.misplaced? := by
  funext spot siblings
  unfold misplaced?
  rw [kind_bare, name_bare]

theorem makeHead_bare (node : Node) : node.bare.makeHead = node.makeHead := by
  cases node <;> rfl

theorem findings_bare (node : Node) : node.bare.findings = node.findings := by
  cases node <;> rfl

theorem bare_eq_of_kind_eq_uses {node : Node} {head : Uses} (h : (uses head).bare = node.bare) : node = uses head := by
  cases node with
  | uses head' =>
    cases h
    rfl
  | _ => cases h

inductive Reordered : List Node → List Node → Prop
  | nil : Reordered [] []
  | cons {node node' : Node} {rest rest' : List Node} (hbare : node.bare = node'.bare)
    (hchildren : Reordered node.children node'.children) (hrest : Reordered rest rest') :
    Reordered (node :: rest) (node' :: rest')
  | swap (node node' : Node) (rest : List Node) : Reordered (node :: node' :: rest) (node' :: node :: rest)
  | trans {nodes nodes' nodes'' : List Node} (h : Reordered nodes nodes') (h' : Reordered nodes' nodes'') :
    Reordered nodes nodes''

theorem Reordered.refl (nodes : List Node) : Reordered nodes nodes := by
  match nodes with
  | [] => exact .nil
  | node :: rest => exact .cons rfl (refl node.children) (refl rest)
termination_by sizeOf nodes
decreasing_by
  · have hlt := node.sizeOf_children_lt
    simp only [List.cons.sizeOf_spec]
    omega
  · simp only [List.cons.sizeOf_spec]
    omega

theorem Reordered.symm {nodes nodes' : List Node} (h : Reordered nodes nodes') : Reordered nodes' nodes := by
  induction h with
  | nil => exact .nil
  | cons hbare _ _ ihchildren ihrest => exact .cons hbare.symm ihchildren ihrest
  | swap node node' rest => exact .swap node' node rest
  | trans _ _ ih ih' => exact .trans ih' ih

structure Matches (node node' : Node) : Prop where
  bare : node.bare = node'.bare
  children : Reordered node.children node'.children

theorem Matches.refl (node : Node) : node.Matches node :=
  ⟨rfl, .refl _⟩

theorem Matches.trans {a b c : Node} (h : a.Matches b) (h' : b.Matches c) : a.Matches c :=
  ⟨h.bare.trans h'.bare, h.children.trans h'.children⟩

end Node

def Shuffled {α : Type} (r : α → α → Prop) (l l' : List α) : Prop :=
  ∃ middle, List.Forall₂ r l middle ∧ middle.Perm l'

namespace Shuffled

variable {α : Type} {r : α → α → Prop} {l l' l'' : List α}

theorem refl (h : ∀ a, r a a) (l : List α) : Shuffled r l l :=
  ⟨l, List.forall₂_same.2 fun a _ => h a, .refl l⟩

theorem symm (hr : ∀ {a b}, r a b → r b a) (h : Shuffled r l l') : Shuffled r l' l := by
  obtain ⟨middle, hforall, hperm⟩ := h
  have hback : List.Forall₂ r middle l := hforall.flip.imp fun _ _ h => hr h
  obtain ⟨other, hother, hperm'⟩ := List.perm_comp_forall₂ hperm.symm hback
  exact ⟨other, hother, hperm'⟩

theorem trans (hr : ∀ {a b c}, r a b → r b c → r a c) (h : Shuffled r l l') (h' : Shuffled r l' l'') :
    Shuffled r l l'' := by
  obtain ⟨middle, hforall, hperm⟩ := h
  obtain ⟨middle', hforall', hperm'⟩ := h'
  obtain ⟨other, hother, hlast⟩ := List.perm_comp_forall₂ hperm hforall'
  refine ⟨other, ?_, hlast.trans hperm'⟩
  exact forall₂_trans (r := r) hr hforall hother

theorem map_perm {β : Type} {f : α → β} (hf : ∀ {a b}, r a b → f a = f b) (h : Shuffled r l l') :
    (l.map f).Perm (l'.map f) := by
  obtain ⟨middle, hforall, hperm⟩ := h
  have heq : l.map f = middle.map f := by
    rw [← List.forall₂_eq_eq_eq, List.forall₂_map_left_iff, List.forall₂_map_right_iff]
    exact hforall.imp fun _ _ h => hf h
  rw [heq]
  exact hperm.map f

theorem append (h : Shuffled r l l') {more more' : List α} (h' : Shuffled r more more') :
    Shuffled r (l ++ more) (l' ++ more') := by
  obtain ⟨middle, hforall, hperm⟩ := h
  obtain ⟨middle', hforall', hperm'⟩ := h'
  exact ⟨middle ++ middle', List.rel_append hforall hforall', hperm.append hperm'⟩

theorem map {β : Type} {s : β → β → Prop} {f g : α → β} (h : Shuffled r l l') (hfg : ∀ {a b}, r a b → s (f a) (g b)) :
    Shuffled s (l.map f) (l'.map g) := by
  obtain ⟨middle, hforall, hperm⟩ := h
  refine ⟨middle.map g, ?_, hperm.map g⟩
  rw [List.forall₂_map_left_iff, List.forall₂_map_right_iff]
  exact hforall.imp fun _ _ hab => hfg hab

theorem flatMap {β : Type} {p : β → β → Prop} {f g : β → List α} {a b : List β} (h : List.Forall₂ p a b)
    (hfg : ∀ {x y}, p x y → Shuffled r (f x) (g y)) : Shuffled r (a.flatMap f) (b.flatMap g) := by
  induction h with
  | nil => exact ⟨[], .nil, .nil⟩
  | cons hxy _ ih =>
    rw [List.flatMap_cons, List.flatMap_cons]
    exact (hfg hxy).append ih

theorem exists_of_mem (h : Shuffled r l l') {a : α} (ha : a ∈ l) : ∃ b ∈ l', r a b := by
  obtain ⟨middle, hforall, hperm⟩ := h
  obtain ⟨b, hb, hab⟩ := exists_of_mem_of_forall₂ hforall ha
  exact ⟨b, hperm.mem_iff.1 hb, hab⟩

end Shuffled

theorem Node.Reordered.shuffled {nodes nodes' : List Node} (h : Reordered nodes nodes') :
    Shuffled Matches nodes nodes' := by
  induction h with
  | nil => exact ⟨[], .nil, .nil⟩
  | cons hbare hchildren _ _ ih =>
    obtain ⟨middle, hforall, hperm⟩ := ih
    exact ⟨_ :: middle, .cons ⟨hbare, hchildren⟩ hforall, hperm.cons _⟩
  | swap node node' rest =>
    refine ⟨_, List.forall₂_same.2 fun a _ => Matches.refl a, .swap node' node rest⟩
  | trans _ _ ih ih' => exact ih.trans Matches.trans ih'

structure Grouping.Reordered (grouping grouping' : Grouping) : Prop where
  name : grouping.name = grouping'.name
  description : grouping.description = grouping'.description
  nodes : Node.Reordered grouping.nodes grouping'.nodes

structure Augment.Reordered (augment augment' : Augment) : Prop where
  target : augment.target = augment'.target
  description : augment.description = augment'.description
  nodes : Node.Reordered augment.nodes augment'.nodes

/--
Whether two documents are the same but for the order of their nodes, definitions and augments.
-/
structure Document.Reordered (d d' : Document) : Prop where
  outline : d.outline = d'.outline
  typedefs : d.body.typedefs.Perm d'.body.typedefs
  groupings : Shuffled Grouping.Reordered d.body.groupings d'.body.groupings
  nodes : Node.Reordered d.body.nodes d'.body.nodes
  augments : Shuffled Augment.Reordered d.body.augments d'.body.augments

theorem Grouping.Reordered.refl (grouping : Grouping) : grouping.Reordered grouping :=
  ⟨rfl, rfl, .refl _⟩

theorem Grouping.Reordered.symm {grouping grouping' : Grouping} (h : grouping.Reordered grouping') :
    grouping'.Reordered grouping :=
  ⟨h.name.symm, h.description.symm, h.nodes.symm⟩

theorem Augment.Reordered.refl (augment : Augment) : augment.Reordered augment :=
  ⟨rfl, rfl, .refl _⟩

theorem Augment.Reordered.symm {augment augment' : Augment} (h : augment.Reordered augment') :
    augment'.Reordered augment :=
  ⟨h.target.symm, h.description.symm, h.nodes.symm⟩

namespace Document

theorem Reordered.refl (d : Document) : d.Reordered d :=
  ⟨rfl, .refl _, .refl Grouping.Reordered.refl _, .refl _, .refl Augment.Reordered.refl _⟩

theorem Reordered.symm {d d' : Document} (h : d.Reordered d') : d'.Reordered d :=
  ⟨h.outline.symm, h.typedefs.symm, h.groupings.symm Grouping.Reordered.symm, h.nodes.symm,
    h.augments.symm Augment.Reordered.symm⟩

theorem likeness_reordered : Likeness False Reordered where
  refl := Reordered.refl
  outline := Reordered.outline
  typedefs := fun h => ⟨h.typedefs.map _, False.elim⟩
  groupings := fun h => ⟨h.groupings.map_perm Grouping.Reordered.name, False.elim⟩

end Document

end Yang

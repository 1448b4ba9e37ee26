import Yang.Proofs.Schema.Ensured

/-!
This module contains what the readers of a document see to, whatever else stands in it: every name under which something
is declared is an identifier, and so is every prefix. A reference may be any text.
-/

namespace Yang

open Yang.Yaml (Value)

inductive Node.Named : Node → Prop
  | mk {node : Node} (name : node.kind ≠ .uses → Field.isIdentifier node.name = true)
    (children : ∀ c ∈ node.children, Named c) : Named node

structure Body.Named (body : Body) : Prop where
  prefixId : Field.isIdentifier body.prefixId = true
  imports : ∀ i ∈ body.imports, Field.isIdentifier i.prefixId = true
  typedefs : ∀ t ∈ body.typedefs, Field.isIdentifier t.name = true
  groupings : ∀ g ∈ body.groupings, ∀ node ∈ g.nodes, node.Named
  nodes : ∀ node ∈ body.nodes, node.Named
  augments : ∀ a ∈ body.augments, ∀ node ∈ a.nodes, node.Named

structure Document.Named (document : Document) : Prop where
  name : Field.isIdentifier document.name = true
  body : document.body.Named

open Checked

theorem Field.identifier_ensures (value : Value) : (identifier value).Ensures fun s => isIdentifier s = true := by
  apply Ensures.whenGood
  intro s _ hnone
  split at hnone
  · next h => exact h
  · cases hnone

theorem Record.name_ensures (key : Key) (entries : Entries) :
    (required key Field.identifier entries).Ensures fun s => Field.isIdentifier s = true :=
  required_ensures Field.identifier_ensures key entries

open Record

theorem Typedef.read_ensures (value : Value) : (read value).Ensures fun t => Field.isIdentifier t.name = true := by
  refine Record.read_ensures (fun entries => ?_) _ _ _
  unfold fields
  iterate 5 apply Ensures.seq
  apply Ensures.map
  intro _ _ name hname
  iterate 4 intro _ _
  exact name_ensures _ _ name hname

theorem Import.read_ensures (value : Value) : (read value).Ensures fun i => Field.isIdentifier i.prefixId = true := by
  refine Record.read_ensures (fun entries => ?_) _ _ _
  apply Ensures.seq
  apply Ensures.map
  intro _ _ prefixId hbound
  exact name_ensures _ _ prefixId hbound

theorem Container.fields_ensures (entries : Entries) :
    (fields entries).Ensures fun head => Field.isIdentifier head.name = true := by
  unfold fields
  iterate 4 apply Ensures.seq
  apply Ensures.map
  intro _ _ name hname
  iterate 3 intro _ _
  exact name_ensures _ _ name hname

theorem KeyedList.fields_ensures (entries : Entries) :
    (fields entries).Ensures fun head => Field.isIdentifier head.name = true := by
  unfold fields
  iterate 7 apply Ensures.seq
  apply Ensures.map
  intro _ _ name hname
  iterate 6 intro _ _
  exact name_ensures _ _ name hname

theorem Leaf.fields_ensures (entries : Entries) :
    (fields entries).Ensures fun head => Field.isIdentifier head.name = true := by
  unfold fields
  iterate 8 apply Ensures.seq
  apply Ensures.map
  intro _ _ _ _ name hname
  iterate 6 intro _ _
  exact name_ensures _ _ name hname

theorem LeafList.fields_ensures (entries : Entries) :
    (fields entries).Ensures fun head => Field.isIdentifier head.name = true := by
  unfold fields
  iterate 9 apply Ensures.seq
  apply Ensures.map
  intro _ _ _ _ name hname
  iterate 7 intro _ _
  exact name_ensures _ _ name hname

theorem Choice.fields_ensures (entries : Entries) :
    (fields entries).Ensures fun head => Field.isIdentifier head.name = true := by
  unfold fields
  iterate 5 apply Ensures.seq
  apply Ensures.map
  intro _ _ name hname
  iterate 4 intro _ _
  exact name_ensures _ _ name hname

theorem Case.fields_ensures (entries : Entries) :
    (fields entries).Ensures fun head => Field.isIdentifier head.name = true := by
  unfold fields
  iterate 2 apply Ensures.seq
  apply Ensures.map
  intro _ _ name hname _ _
  exact name_ensures _ _ name hname

namespace Node

theorem assembles_named : Assembles Named := by
  intro children hchildren kind entries
  apply Ensures.whenGood
  apply closed_ensures
  refine Ensures.imp (p := Named) ?_ fun _ h _ => h
  cases kind with
  | container =>
    apply Ensures.seq
    apply Ensures.map
    intro head hhead nodes hnodes
    exact .mk (fun _ => Container.fields_ensures _ head hhead) (hchildren nodes hnodes)
  | list =>
    apply Ensures.seq
    apply Ensures.map
    intro head hhead nodes hnodes
    exact .mk (fun _ => KeyedList.fields_ensures _ head hhead) (hchildren nodes hnodes)
  | leaf =>
    apply Ensures.map
    intro head hhead
    exact .mk (fun _ => Leaf.fields_ensures _ head hhead) (List.forall_mem_nil _)
  | leafList =>
    apply Ensures.map
    intro head hhead
    exact .mk (fun _ => LeafList.fields_ensures _ head hhead) (List.forall_mem_nil _)
  | choice =>
    apply Ensures.seq
    apply Ensures.map
    intro head hhead nodes hnodes
    exact .mk (fun _ => Choice.fields_ensures _ head hhead) (hchildren nodes hnodes)
  | case =>
    apply Ensures.seq
    apply Ensures.map
    intro head hhead nodes hnodes
    exact .mk (fun _ => Case.fields_ensures _ head hhead) (hchildren nodes hnodes)
  | uses =>
    apply Ensures.map
    intro head _
    exact .mk (fun hkind => absurd rfl hkind) (List.forall_mem_nil _)

end Node

theorem Body.fields_ensures (entries : Entries) : (fields entries).Ensures Named := by
  have hgrouping := Grouping.read_ensures Node.assembles_named
  have haugment := Augment.read_ensures Node.assembles_named
  unfold fields
  iterate 10 apply Ensures.seq
  apply Ensures.map
  intro prefixId hbound
  iterate 4 intro _ _
  intro imports himports _ _ typedefs htypedefs groupings hgroupings nodes hnodes augments haugments
  exact {
    prefixId := name_ensures _ _ prefixId hbound
    imports := list_ensures Import.read_ensures _ _ imports himports
    typedefs := list_ensures Typedef.read_ensures _ _ typedefs htypedefs
    groupings := list_ensures hgrouping _ _ groupings hgroupings
    nodes := Node.readBody_ensures Node.assembles_named _ nodes hnodes
    augments := list_ensures haugment _ _ augments haugments }

theorem Module.read_ensures (value : Value) : (read value).Ensures fun m => (Document.main m).Named := by
  refine Record.read_ensures (fun entries => ?_) _ _ _
  iterate 2 apply Ensures.seq
  apply Ensures.map
  intro body hbody name hname _ _
  exact ⟨name_ensures _ _ name hname, Body.fields_ensures _ body hbody⟩

theorem Submodule.read_ensures (value : Value) : (read value).Ensures fun s => (Document.part s).Named := by
  refine Record.read_ensures (fun entries => ?_) _ _ _
  iterate 2 apply Ensures.seq
  apply Ensures.map
  intro body hbody name hname _ _
  exact ⟨name_ensures _ _ name hname, Body.fields_ensures _ body hbody⟩

namespace Document

theorem Named.withSource {document : Document} (h : document.Named) (source : String) :
    (document.withSource source).Named := by
  cases document with
  | main m => exact ⟨h.name, ⟨h.body.1, h.body.2, h.body.3, h.body.4, h.body.5, h.body.6⟩⟩
  | part s => exact ⟨h.name, ⟨h.body.1, h.body.2, h.body.3, h.body.4, h.body.5, h.body.6⟩⟩

theorem ensured_named : Ensured Named where
  main := Module.read_ensures
  part := Submodule.read_ensures
  withSource h := h.withSource

end Document

end Yang

import Yang.Proofs.Schema.Ensured

/-!
This module contains the bounds on the numbers of elements of lists and leaf-lists. The readers see to it that the
bounds of a list are in order, wherever the list stands in a document. They do not see to the bounds of a leaf-list.
-/

namespace Yang

open Yang.Yaml (Value)

def KeyedList.Bounded (head : KeyedList) : Prop :=
  ∀ least greatest, head.minElements = some least → head.maxElements = some greatest → least ≤ greatest

theorem KeyedList.crossing?_eq_none_iff {head : KeyedList} : head.crossing? = none ↔ head.Bounded := by
  unfold KeyedList.crossing? KeyedList.Bounded
  cases head.minElements <;> cases head.maxElements <;> simp

inductive Node.Bounded : Node → Prop
  | mk {node : Node} (bounds : ∀ head nodes, node = .list head nodes → head.Bounded)
    (children : ∀ c ∈ node.children, Bounded c) : Bounded node

def Document.Bounded (document : Document) : Prop :=
  document.body.Every Node.Bounded

open Checked

namespace Node

theorem assembles_bounded : Assembles Bounded := by
  intro children hchildren kind entries
  apply Ensures.whenGood
  apply Record.closed_ensures
  cases kind with
  | container =>
    apply Ensures.seq
    apply Ensures.map
    intro head _ nodes hnodes _
    exact .mk nofun (hchildren nodes hnodes)
  | list =>
    apply Ensures.seq
    apply Ensures.map
    intro head _ nodes hnodes hcrossing
    refine .mk ?_ (hchildren nodes hnodes)
    rintro _ _ ⟨⟩
    exact KeyedList.crossing?_eq_none_iff.1 hcrossing
  | leaf =>
    apply Ensures.map
    intro head _ _
    exact .mk nofun (List.forall_mem_nil _)
  | leafList =>
    apply Ensures.map
    intro head _ _
    exact .mk nofun (List.forall_mem_nil _)
  | choice =>
    apply Ensures.seq
    apply Ensures.map
    intro head _ nodes hnodes _
    exact .mk nofun (hchildren nodes hnodes)
  | case =>
    apply Ensures.seq
    apply Ensures.map
    intro head _ nodes hnodes _
    exact .mk nofun (hchildren nodes hnodes)
  | uses =>
    apply Ensures.map
    intro head _ _
    exact .mk nofun (List.forall_mem_nil _)

end Node

theorem Module.bounded_ensures (value : Value) : (read value).Ensures fun m => (Document.main m).Bounded := by
  refine Record.read_ensures (fun entries => ?_) _ _ _
  iterate 2 apply Ensures.seq
  apply Ensures.map
  intro body hbody _ _ _ _
  exact Body.every_ensures Node.assembles_bounded _ body hbody

theorem Submodule.bounded_ensures (value : Value) : (read value).Ensures fun s => (Document.part s).Bounded := by
  refine Record.read_ensures (fun entries => ?_) _ _ _
  iterate 2 apply Ensures.seq
  apply Ensures.map
  intro body hbody _ _ _ _
  exact Body.every_ensures Node.assembles_bounded _ body hbody

theorem Document.ensured_bounded : Ensured Document.Bounded where
  main := Module.bounded_ensures
  part := Submodule.bounded_ensures
  withSource {document} h source := by
    cases document with
    | main m => exact ⟨h.1, h.2, h.3⟩
    | part s => exact ⟨h.1, h.2, h.3⟩

end Yang

import Yang.Proofs.Schema.Covered
import Yang.Proofs.Schema.Restored

/-!
This module contains that reading a document and writing the result is a normalisation, by which nothing is dropped.
-/

namespace Yang

open Yang.Yaml (Value)
open Checked
open Shape (Fits)

/--
Whether readings are normalisations that drop nothing. What is written of a result is read as the same result, so it is
written as it is. A value that is read has the shape of the model: each key of a mapping is the spelling under which a
field is read, and what stands there has the shape of the field. When no key comes twice in a mapping, that is so for
every mapping in the value.
-/
structure Normalises {α : Type} (read : Value → Checked α) (write : α → Value) (m : Model) : Prop where
  again : ∀ value a, read value = .good a → read (write a) = .good a
  idempotent : ∀ value written, write <$> read value = .good written → write <$> read written = .good written
  shaped : ∀ value a, read value = .good a → Fits (.model m) value
  everywhere : ∀ value a, read value = .good a → value.Keyed →
    ∀ label entries, Value.Within (.mapping label entries) value → ∃ m, Fits (.model m) (.mapping label entries)

theorem normalises {α : Type} {read : Value → Checked α} {write : α → Value} {m : Model} (hstable : Stable read write)
    (hasks : Asks read (.model m)) : Normalises read write m where
  again := hstable
  idempotent value written h := by
    obtain ⟨a, ha, rfl⟩ := map_eq_good.1 h
    rw [hstable value a ha]
    rfl
  shaped := hasks
  everywhere value a h hkeyed _ _ hwithin := (hasks value a h).model_of_within hkeyed hwithin

/--
Reading a module or a submodule is a normalisation that drops nothing.
-/
theorem document_normalises : Normalises Module.read Module.toValue .main
    ∧ Normalises Submodule.read Submodule.toValue .part :=
  ⟨normalises Module.read_stable Module.read_asks, normalises Submodule.read_stable Submodule.read_asks⟩

namespace Yaml.Value

theorem keyed_of_isScalar {value : Value} (h : value.IsScalar) : value.Keyed := by
  intro label entries hwithin
  cases hwithin with
  | self => exact h.elim
  | item hitems => cases value <;> first | exact h.elim | cases hitems
  | entry => exact h.elim

theorem keyed_sequence {label : Option Nat} {items : List Value} (h : ∀ item ∈ items, item.Keyed) :
    Keyed (.sequence label items) := by
  intro _ _ hwithin
  cases hwithin with
  | item hitems hitem hwithin =>
    cases hitems
    exact h _ hitem _ _ hwithin

theorem keyed_mapping {label : Option Nat} {entries : Entries} (hnodup : (entries.map Prod.fst).Nodup)
    (h : ∀ e ∈ entries, Keyed e.2) : Keyed (.mapping label entries) := by
  intro _ _ hwithin
  cases hwithin with
  | self => exact hnodup
  | item hitems => cases hitems
  | entry he hwithin => exact h _ he _ _ hwithin

end Yaml.Value

def leafValue : Value :=
  .mapping none [(.text "name", .text "a"), (.text "kind", .text "leaf"), (.text "type", .text "string"),
    (.text "default", .bool true)]

def listValue : Value :=
  .mapping none [(.text "kind", .text "list"), (.text "name", .text "l"), (.text "min_elements", .int 1),
    (.text "nodes", .sequence none [leafValue])]

def looseValue : Value :=
  .mapping none [(.text "name", .text "m"), (.text "namespace", .text "u"), (.text "prefix", .text "p"),
    (.text "revision", .date ⟨2024, 1, 1⟩), (.text "nodes", .sequence none [listValue])]

def strictValue : Value :=
  .mapping none [(.text "prefix", .text "p"), (.text "revision", .text "2024-01-01"),
    (.text "imports", .sequence none []), (.text "includes", .sequence none []),
    (.text "typedefs", .sequence none []), (.text "groupings", .sequence none []),
    (.text "nodes", .sequence none [.mapping none [(.text "kind", .text "list"), (.text "name", .text "l"),
      (.text "min-elements", .int 1), (.text "ordered-by", .text "system"),
      (.text "nodes", .sequence none [.mapping none [(.text "kind", .text "leaf"), (.text "name", .text "a"),
        (.text "type", .text "string"), (.text "mandatory", .bool false), (.text "default", .text "true")]])]]),
    (.text "augments", .sequence none []), (.text "module", .text "m"), (.text "namespace", .text "u")]

theorem read_looseValue : Module.toValue <$> Module.read looseValue = .good strictValue := by
  rfl

theorem keyed_looseValue : looseValue.Keyed := by
  have hleaf : leafValue.Keyed := by
    apply Value.keyed_mapping (by simp)
    simp only [List.forall_mem_cons]
    exact ⟨Value.keyed_of_isScalar trivial, Value.keyed_of_isScalar trivial, Value.keyed_of_isScalar trivial,
      Value.keyed_of_isScalar trivial, List.forall_mem_nil _⟩
  have hlist : listValue.Keyed := by
    apply Value.keyed_mapping (by simp)
    simp only [List.forall_mem_cons]
    exact ⟨Value.keyed_of_isScalar trivial, Value.keyed_of_isScalar trivial, Value.keyed_of_isScalar trivial,
      Value.keyed_sequence (List.forall_mem_singleton.2 hleaf), List.forall_mem_nil _⟩
  apply Value.keyed_mapping (by simp)
  simp only [List.forall_mem_cons]
  exact ⟨Value.keyed_of_isScalar trivial, Value.keyed_of_isScalar trivial, Value.keyed_of_isScalar trivial,
    Value.keyed_of_isScalar trivial, Value.keyed_sequence (List.forall_mem_singleton.2 hlist), List.forall_mem_nil _⟩

theorem document_normalises_loose : Module.toValue <$> Module.read looseValue = .good strictValue
    ∧ Module.toValue <$> Module.read strictValue = .good strictValue
    ∧ ∀ label entries, Value.Within (.mapping label entries) looseValue →
      ∃ m, Fits (.model m) (.mapping label entries) := by
  obtain ⟨m, hread, _⟩ := map_eq_good.1 read_looseValue
  exact ⟨read_looseValue, document_normalises.1.idempotent _ _ read_looseValue,
    document_normalises.1.everywhere _ m hread keyed_looseValue⟩

end Yang

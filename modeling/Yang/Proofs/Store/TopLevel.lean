import Yang.Proofs.Keyed
import Yang.Store

/-!
This module contains the first modules of all names in a store, which stand in the order of their names.
-/

namespace Yang

namespace Store

theorem module?_spec {store : Store} {name : String} {m : Module} (h : store.module? name = some m) :
    m ∈ store.modules ∧ m.name = name := by
  constructor
  · exact List.mem_of_find?_eq_some h
  · simpa using List.find?_some h

theorem submodule?_spec {store : Store} {name : String} {s : Submodule} (h : store.submodule? name = some s) :
    s ∈ store.submodules ∧ s.name = name := by
  constructor
  · exact List.mem_of_find?_eq_some h
  · simpa using List.find?_some h

theorem isSome_module?_iff {store : Store} {name : String} :
    (store.module? name).isSome = true ↔ name ∈ store.modules.map Module.name := by
  unfold module?
  rw [List.find?_isSome, List.mem_map]
  simp

theorem names_topLevel (store : Store) :
    store.topLevel.map Module.name = Text.sorted (store.modules.map Module.name).eraseDups := by
  unfold topLevel
  have hmem : ∀ name ∈ Text.sorted (store.modules.map Module.name).eraseDups,
      (store.module? name).map Module.name = some name := by
    intro name hname
    unfold Text.sorted at hname
    rw [List.mem_mergeSort, List.mem_eraseDups, ← isSome_module?_iff] at hname
    obtain ⟨m, hm⟩ := Option.isSome_iff_exists.1 hname
    rw [hm, Option.map_some, (module?_spec hm).2]
  rw [List.map_filterMap]
  generalize Text.sorted (store.modules.map Module.name).eraseDups = names at hmem
  induction names with
  | nil => rfl
  | cons name rest ih =>
    rw [List.filterMap_cons, hmem name List.mem_cons_self]
    dsimp only
    rw [ih fun other hother => hmem other (List.mem_cons_of_mem _ hother)]

theorem pairwise_topLevel (store : Store) : (store.topLevel.map Module.name).Pairwise (· < ·) := by
  rw [names_topLevel]
  exact Text.pairwise_lt_sorted (Text.nodup_eraseDups _)

theorem mem_names_topLevel_iff {store : Store} {name : String} :
    name ∈ store.topLevel.map Module.name ↔ (store.module? name).isSome = true := by
  rw [names_topLevel, isSome_module?_iff]
  unfold Text.sorted
  rw [List.mem_mergeSort, List.mem_eraseDups]

end Store

end Yang

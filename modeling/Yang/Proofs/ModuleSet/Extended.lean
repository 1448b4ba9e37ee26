import Yang.Proofs.Gather.Extended
import Yang.Proofs.ModuleSet.Joined
import Yang.Proofs.ModuleSet.Reordered
import Yang.Proofs.Tree.Pruned

/-!
This module contains sets with a further module that no other document imports and whose namespace is its own. What it
brings is all that it changes: without it no problem is found either, and the other modules have the trees that are left
when everything with its namespace goes.
-/

namespace Yang

theorem Scopes.Spares.forest_but {scopes : Scopes} {name uri : String} (h : scopes.Spares name uri)
    (hnil : scopes.forest.2.problems = []) :
    (scopes.but name).forest.2.problems = []
      ∧ (scopes.but name).forest.1.Reordered (Entry.withoutAll uri scopes.forest.1) := by
  have hc := h.coherent_but
  obtain ⟨trees, scions, hblooms⟩ := ((Scopes.flourishes_forest h.coherent hnil).but h).blooms hc
  obtain ⟨hnil', ho, hat⟩ := hblooms.forest_spec hc
  exact ⟨hnil', ho, hblooms.orderly, (Scopes.flourishes_forest hc hnil').restricted,
    Entry.likewise_of_at_iff ho hblooms.orderly hat⟩

namespace ModuleSet

variable {s u : Store} {files : Files} {b : Module}

theorem gather_extended (h : s.Joins ((Store.empty s.searchPath).add (.main b)) u)
    (hb : b.Further s (gather u files).2.store) (hrunning : (gather u files).2.breakdown = none)
    (hnil : (gather u files).2.problems = []) :
    (gather s files).2.breakdown = none ∧ (gather s files).2.problems = []
      ∧ (gather s files).1 = (gather u files).1.but b.name := by
  obtain ⟨hnone, hsilent, hscopes⟩ := Gathering.all_extended h hb hrunning hnil
  refine ⟨hnone, hsilent, ?_⟩
  have hdistinct := (sound_gather s files).coherent.distinct
  have hdistinct' := (sound_gather u files).coherent.distinct
  unfold gather Scopes.but at *
  dsimp only at hdistinct hdistinct' ⊢
  -- both lists are in the order of the names
  have hperm := List.mergeSort_perm (Gathering.all files [] [] ⟨s, [], none⟩).1
    (fun a b => decide (a.main.name ≤ b.main.name))
  have hperm' := List.mergeSort_perm (Gathering.all files [] [] ⟨u, [], none⟩).1
    (fun a b => decide (a.main.name ≤ b.main.name))
  have hlt := pairwise_lt_mergeSort ((hperm.map _).nodup_iff.1 hdistinct)
  have hlt' := pairwise_lt_mergeSort ((hperm'.map _).nodup_iff.1 hdistinct')
  apply eq_of_perm_of_pairwise_lt hlt (hlt'.filter _)
  rw [hscopes] at hperm ⊢
  exact hperm.trans (hperm'.filter _).symm

theorem main_mem_of_mem_gather {scope : Scope} (hscope : scope ∈ (gather u files).1) :
    scope.main ∈ (gather u files).2.store.modules :=
  (Store.module?_spec ((sound_gather u files).first scope hscope)).1

theorem spares_gather (hb : b.Further s (gather u files).2.store)
    (hscopes : (gather s files).1 = (gather u files).1.but b.name) : (gather u files).1.Spares b.name b.uri where
  coherent := (sound_gather u files).coherent
  part := by
    rw [← hscopes]
    constructor
    · intro name hsome
      obtain ⟨scope, hscope⟩ := Option.isSome_iff_exists.1 hsome
      obtain ⟨hmem, rfl⟩ := Scopes.scope?_spec hscope
      rw [hscope]
      rw [hscopes] at hmem
      exact Scopes.scope?_eq_some_of_mem (sound_gather u files).coherent.distinct (Scopes.mem_but_iff.1 hmem).1
    · rintro context ⟨scope, hscope, hcontext⟩ prefixId name hname
      exact isSome_scope?_gather s files hscope hcontext hname
  uri := by
    intro scope hscope
    have hmem := main_mem_of_mem_gather hscope
    constructor
    · intro huri
      by_contra hname
      exact hb.uri scope.main hmem hname huri
    · intro hname
      have hin : scope.main ∈ (gather u files).2.store.modules.filter (fun m => m.name == b.name) :=
        List.mem_filter.2 ⟨hmem, beq_iff_eq.2 hname⟩
      rw [hb.only, List.mem_singleton] at hin
      rw [hin]

theorem exists_scope_of_mem {m : Module} (hm : m ∈ (gather s files).2.store.modules) :
    ∃ scope ∈ (gather s files).1, scope.main.name = m.name := by
  have hname := List.mem_map_of_mem (f := Module.name) hm
  rw [← Store.isSome_module?_iff, ← Store.mem_names_topLevel_iff, ← scopedNames_gather] at hname
  exact List.mem_map.1 hname

/--
A further module is a conservative extension: when no problem is found with it, none is found without it, and every other
module has the tree that is left without the entries of the further module.
-/
theorem process_extended (h : s.Joins ((Store.empty s.searchPath).add (.main b)) u)
    (hb : b.Further s (process ⟨u, none⟩ files).2.store) (hok : (process ⟨u, none⟩ files).1 = .ok []) :
    (process ⟨s, none⟩ files).1 = .ok []
      ∧ ∀ m ∈ (process ⟨s, none⟩ files).2.store.modules, ∃ tree tree',
        (process ⟨s, none⟩ files).2.toEntry m.name = .ok tree ∧ (process ⟨u, none⟩ files).2.toEntry m.name = .ok tree'
          ∧ tree.Reordered (tree'.without b.uri) := by
  have hrunning := running_of_process hok
  rw [process_of_running hrunning] at hb hok
  have hfurther : b.Further s (gather u files).2.store := ⟨hb.new, hb.includes, hb.imports, hb.only, hb.unwanted, hb.uri⟩
  have hnil : (gather u files).2.problems ++ (gather u files).1.forest.2.problems = [] := by
    injection hok
  rw [List.append_eq_nil_iff] at hnil
  obtain ⟨hrunning', hsilent, hscopes⟩ := gather_extended h hfurther hrunning hnil.1
  have hspares := spares_gather hfurther hscopes
  obtain ⟨hnil', hforest⟩ := hspares.forest_but hnil.2
  rw [← hscopes] at hnil' hforest
  constructor
  · rw [process_of_running hrunning']
    dsimp only
    rw [hsilent, hnil']
    rfl
  · intro m hm
    rw [process_of_running hrunning'] at hm
    obtain ⟨scope, hscope, hname⟩ := exists_scope_of_mem hm
    have hin : m.name ∈ (gather s files).1.forest.1.map Entry.name := by
      rw [names_forest, ← hname]
      exact List.mem_map_of_mem hscope
    rw [hscopes, Scopes.mem_but_iff, hname] at hscope
    obtain ⟨tree, htree⟩ := Entry.exists_named?_of_mem_names hin
    have hrel := hforest.named? m.name
    rw [htree] at hrel
    cases hnamed : Entry.named? m.name (gather u files).1.forest.1 with
    | none =>
      rw [Entry.named?_withoutAll_eq_none hnamed] at hrel
      cases hrel
    | some tree' =>
      obtain ⟨hmem, hname⟩ := Entry.named?_spec htree
      obtain ⟨hmem', hname'⟩ := Entry.named?_spec hnamed
      have hkept : tree'.head.uri ≠ b.uri :=
        fun huri => hscope.2 (hname'.symm.trans ((hspares.uri_of_heads (Scopes.heads_forest _) hmem').1 huri))
      rw [Entry.named?_withoutAll hnamed hkept] at hrel
      cases hrel with
      | some hreordered =>
        exact ⟨tree, tree', (toEntry_eq_ok_iff hrunning').2 ⟨hmem, hname⟩,
          (toEntry_eq_ok_iff hrunning).2 ⟨hmem', hname'⟩, hreordered⟩

def guestModule : Module :=
  ⟨"n", "w", ⟨"q", none, none, none, none, [⟨"m", "x"⟩], [], [], [], [],
    [⟨"/x:c", none, [.leaf ⟨.free, "b", "string", none, none, true, none, none⟩]⟩], "n.yaml"⟩⟩

def hosting : Store :=
  (Store.empty []).addAll [.main guestModule, .main sampleModule]

theorem gather_hosting (files : Files) : gather hosting files
    = ([⟨sampleModule, [⟨.main sampleModule, "m", [("p", "m")]⟩]⟩,
        ⟨guestModule, [⟨.main guestModule, "n", [("q", "n"), ("x", "m")]⟩]⟩],
      ⟨(hosting.note (.collected "m" 1)).note (.collected "n" 1), [], none⟩) := by
  have hall : Gathering.all files [] [] ⟨hosting, [], none⟩
      = ([⟨sampleModule, [⟨.main sampleModule, "m", [("p", "m")]⟩]⟩,
          ⟨guestModule, [⟨.main guestModule, "n", [("q", "n"), ("x", "m")]⟩]⟩],
        ⟨(hosting.note (.collected "m" 1)).note (.collected "n" 1), [], none⟩) := by
    rw [@Gathering.all_of_next_eq_some _ _ _ ["n"] sampleModule]
    · rw [@Gathering.all_of_next_eq_some _ _ _ [] guestModule]
      · rw [Gathering.all_of_next_eq_none]
        · cbv
        · cbv
      · cbv
    · cbv
  unfold gather
  rw [hall]
  cbv

theorem process_hosting (files : Files) : (process ⟨hosting, none⟩ files).1 = .ok [] := by
  rw [process_open, gather_hosting]
  cbv

theorem further_guest {store : Store} (hmodules : store.modules = [guestModule, sampleModule])
    (hsubmodules : store.submodules = []) : guestModule.Further ((Store.empty []).addAll [.main sampleModule]) store where
  new := by decide
  includes := rfl
  imports := by decide
  only := by
    rw [hmodules]
    rfl
  unwanted := by
    intro d hd hother i hi
    cases d with
    | main m =>
      change m ∈ store.modules at hd
      rw [hmodules, List.mem_pair] at hd
      rcases hd with rfl | rfl
      · exact absurd rfl hother
      · cases hi
    | part a =>
      change a ∈ store.submodules at hd
      rw [hsubmodules] at hd
      cases hd
  uri := by
    rw [hmodules]
    decide

theorem process_extended_sample :
    let s := (Store.empty []).addAll [.main sampleModule]
    s.Joins ((Store.empty []).add (.main guestModule)) hosting
      ∧ guestModule.Further s (process ⟨hosting, none⟩ .empty).2.store
      ∧ (process ⟨hosting, none⟩ .empty).1 = .ok []
      ∧ (process ⟨s, none⟩ .empty).1 = .ok []
      ∧ ∀ m ∈ (process ⟨s, none⟩ .empty).2.store.modules, ∃ tree tree',
        (process ⟨s, none⟩ .empty).2.toEntry m.name = .ok tree
          ∧ (process ⟨hosting, none⟩ .empty).2.toEntry m.name = .ok tree'
          ∧ tree.Reordered (tree'.without guestModule.uri) := by
  intro s
  have hjoins : s.Joins ((Store.empty []).add (.main guestModule)) hosting := by
    apply @Store.joins_addAll_perm _ [.main sampleModule] [.main guestModule] _ rfl rfl (.swap _ _ _)
    simp [Store.Apart, Document.word, Document.name, sampleModule, plainModule, guestModule]
  have hfurther : guestModule.Further s (process ⟨hosting, none⟩ .empty).2.store := by
    apply further_guest
    · rw [process_open, gather_hosting]
      rfl
    · rw [process_open, gather_hosting]
      rfl
  exact ⟨hjoins, hfurther, process_hosting _, process_extended hjoins hfurther (process_hosting _)⟩

end ModuleSet

end Yang

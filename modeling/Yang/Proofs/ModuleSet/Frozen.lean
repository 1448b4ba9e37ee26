import Yang.Proofs.ModuleSet.Closed

/-!
This module contains what later operations make of a processed set. Its problems and trees stay, and nothing can be read
or parsed into it any more. But a record that is looked for and not there is still loaded from a file, and a module that
comes in this way has no tree.
-/

namespace Yang

inductive Operation where
  | read (name : String)
  | parse (text source : String)
  | module (name : String)
  | submodule (name : String)
  | findModule (name : String)
  | findSubmodule (name : String)
  | locate (name : String)
  | topLevel
  | process
  | toEntry (name : String)
  deriving DecidableEq, Repr, Inhabited

def Store.Exhausted (store : Store) (files : Files) (name : String) : Prop :=
  ∀ path, locate store.searchPath files (name ++ schemaSuffix) = .ok (some path) → store.fresh? files path = none

/--
Whether an operation loads no file: it looks for no record, or for one that is there, or for one that no file is left
for.
-/
def Operation.Loadless (store : Store) (files : Files) : Operation → Prop
  | findModule name => (store.module? name).isSome = true ∨ store.Exhausted files name
  | findSubmodule name => (store.submodule? name).isSome = true ∨ store.Exhausted files name
  | _ => True

theorem Store.Exhausted.load {store : Store} {files : Files} {name : String} (h : store.Exhausted files name) :
    (store.load files name).2 = store := by
  unfold Store.load
  split
  · rfl
  · rfl
  · next path hpath =>
    unfold loadPath
    rw [h path hpath]

theorem Store.find_of_loadless {α : Type} {get : Store → String → Option α} {store : Store} {files : Files}
    {name : String} (h : (get store name).isSome = true ∨ store.Exhausted files name) :
    (find get store files name).2 = store := by
  unfold find
  cases hfound : get store name with
  | some found => rfl
  | none =>
    rcases h with h | h
    · rw [hfound] at h
      cases h
    · exact h.load

namespace ModuleSet

def after (set : ModuleSet) (files : Files) : Operation → ModuleSet
  | .read name => (set.read files name).2
  | .parse text source => (set.parse text source).2
  | .findModule name => (set.findModule files name).2
  | .findSubmodule name => (set.findSubmodule files name).2
  | .process => (set.process files).2
  | .module _ => set
  | .submodule _ => set
  | .locate _ => set
  | .topLevel => set
  | .toEntry _ => set

def afterAll (set : ModuleSet) (history : List (Operation × Files)) : ModuleSet :=
  history.foldl (fun set p => set.after p.2 p.1) set

variable {set later : ModuleSet} {outcome : Outcome}

theorem whileOpen_of_outcome {α : Type} (h : set.outcome = some outcome) (load : Store → Store.Loading α) :
    set.whileOpen load = (.error .frozen, set) := by
  unfold whileOpen isProcessed
  rw [h]
  rfl

theorem read_of_outcome (h : set.outcome = some outcome) (files : Files) (name : String) :
    set.read files name = (.error .frozen, set) :=
  whileOpen_of_outcome h _

theorem parse_of_outcome (h : set.outcome = some outcome) (text source : String) :
    set.parse text source = (.error .frozen, set) :=
  whileOpen_of_outcome h _

theorem process_of_outcome (h : set.outcome = some outcome) (files : Files) :
    set.process files = (.ok outcome.problems, set) := by
  unfold process
  rw [h]

theorem after_of_outcome (h : set.outcome = some outcome) (files : Files) (operation : Operation) :
    (set.after files operation).outcome = some outcome ∧ set.store.Extends (set.after files operation).store := by
  cases operation with
  | read name =>
    unfold after
    dsimp only
    rw [read_of_outcome h]
    exact ⟨h, .refl _⟩
  | parse text source =>
    unfold after
    dsimp only
    rw [parse_of_outcome h]
    exact ⟨h, .refl _⟩
  | findModule name => exact ⟨h, Store.extends_find _ _ _ _⟩
  | findSubmodule name => exact ⟨h, Store.extends_find _ _ _ _⟩
  | process =>
    unfold after
    rw [process_of_outcome h]
    exact ⟨h, .refl _⟩
  | module | submodule | locate | topLevel | toEntry => exact ⟨h, .refl _⟩

theorem after_of_loadless (h : set.outcome = some outcome) {files : Files} {operation : Operation}
    (hloadless : operation.Loadless set.store files) : set.after files operation = set := by
  cases operation with
  | read name =>
    unfold after
    dsimp only
    rw [read_of_outcome h]
  | parse text source =>
    unfold after
    dsimp only
    rw [parse_of_outcome h]
  | findModule name =>
    unfold after findModule loading Store.findModule
    dsimp only
    rw [Store.find_of_loadless hloadless]
  | findSubmodule name =>
    unfold after findSubmodule loading Store.findSubmodule
    dsimp only
    rw [Store.find_of_loadless hloadless]
  | process =>
    unfold after
    rw [process_of_outcome h]
  | module | submodule | locate | topLevel | toEntry => rfl

theorem afterAll_of_outcome (h : set.outcome = some outcome) (history : List (Operation × Files)) :
    (set.afterAll history).outcome = some outcome ∧ set.store.Extends (set.afterAll history).store := by
  unfold afterAll
  induction history generalizing set with
  | nil => exact ⟨h, .refl _⟩
  | cons p rest ih =>
    obtain ⟨houtcome, hextends⟩ := after_of_outcome h p.2 p.1
    obtain ⟨houtcome', hextends'⟩ := ih houtcome
    exact ⟨houtcome', hextends.trans hextends'⟩

theorem afterAll_of_loadless (h : set.outcome = some outcome) {history : List (Operation × Files)}
    (hloadless : ∀ p ∈ history, p.1.Loadless set.store p.2) : set.afterAll history = set := by
  unfold afterAll
  induction history with
  | nil => rfl
  | cons p rest ih =>
    rw [List.forall_mem_cons] at hloadless
    rw [List.foldl_cons, after_of_loadless h hloadless.1]
    exact ih hloadless.2

theorem exists_mapM_eq_ok_iff {ε α β : Type} {f : α → Except ε β} {l : List α} :
    (∃ results, l.mapM f = .ok results) ↔ ∀ a ∈ l, ∃ b, f a = .ok b := by
  induction l with
  | nil => exact ⟨fun _ => by simp, fun _ => ⟨[], rfl⟩⟩
  | cons a rest ih =>
    rw [List.forall_mem_cons, ← ih, List.mapM_cons]
    cases f a with
    | error e => simp [bind, Except.bind]
    | ok b => cases rest.mapM f <;> simp [bind, Except.bind, pure, Except.pure]

theorem exists_toEntry_eq_ok_iff (h : set.outcome = some outcome) {name : String} :
    (∃ tree, set.toEntry name = .ok tree) ↔ name ∈ outcome.forest.map Entry.name := by
  unfold toEntry
  rw [h]
  dsimp only
  cases hnamed : Entry.named? name outcome.forest with
  | none =>
    rw [Entry.named?_eq_none_iff] at hnamed
    simp [hnamed]
  | some tree =>
    obtain ⟨hmem, rfl⟩ := Entry.named?_spec hnamed
    exact ⟨fun _ => List.mem_map_of_mem hmem, fun _ => ⟨tree, rfl⟩⟩

/--
What holds of a processed set after further operations. There are trees for all of its modules as long as no module of
a new name has come in, and no module comes in when no operation loads a file.
-/
structure Frozen (processed : ModuleSet) (history : List (Operation × Files)) (later : ModuleSet) : Prop where
  outcome : later.outcome = processed.outcome
  kept : processed.store.Extends later.store
  read : ∀ files name, later.read files name = (.error .frozen, later)
  parse : ∀ text source, later.parse text source = (.error .frozen, later)
  trees : ∀ m ∈ processed.store.topLevel, later.store.module? m.name = some m
    ∧ ∃ tree, processed.toEntry m.name = .ok tree ∧ later.toEntry m.name = .ok tree
  topLevelEntries : (∃ trees, later.topLevelEntries = .ok trees)
    ↔ ∀ m ∈ later.store.modules, m.name ∈ processed.store.modules.map Module.name
  loadless : (∀ p ∈ history, p.1.Loadless processed.store p.2) → later = processed

theorem topLevel_first {store : Store} {m : Module} (h : m ∈ store.topLevel) : store.module? m.name = some m := by
  unfold Store.topLevel at h
  obtain ⟨name, _, hm⟩ := List.mem_filterMap.1 h
  rw [(Store.module?_spec hm).2]
  exact hm

/--
A processed set keeps its problems and its trees, whatever is done with it and whatever files there are by then, and it
keeps its records as long as no further file is loaded.
-/
theorem frozen_afterAll {store : Store} {files : Files} {problems : List Diagnostic}
    (hok : (process ⟨store, none⟩ files).1 = .ok problems) (history : List (Operation × Files)) :
    Frozen (process ⟨store, none⟩ files).2 history ((process ⟨store, none⟩ files).2.afterAll history) := by
  have hclosed := closed_process hok
  generalize (process ⟨store, none⟩ files).2 = processed at hclosed ⊢
  obtain ⟨outcome, houtcome, hnames, _⟩ := hclosed.trees
  obtain ⟨hlater, hextends⟩ := afterAll_of_outcome houtcome history
  have hscoped : ∀ name, name ∈ outcome.forest.map Entry.name ↔ name ∈ processed.store.modules.map Module.name := by
    rw [hnames]
    exact hclosed.loaded
  constructor
  · rw [hlater, houtcome]
  · exact hextends
  · exact read_of_outcome hlater
  · exact parse_of_outcome hlater
  · intro m hm
    have hfirst := topLevel_first hm
    refine ⟨hextends.module? hfirst, ?_⟩
    have hmem : m.name ∈ outcome.forest.map Entry.name :=
      (hscoped m.name).2 (List.mem_map_of_mem (Store.module?_spec hfirst).1)
    obtain ⟨tree, htree⟩ := (exists_toEntry_eq_ok_iff houtcome).2 hmem
    refine ⟨tree, htree, ?_⟩
    unfold toEntry at htree ⊢
    rw [hlater]
    rw [houtcome] at htree
    exact htree
  · rw [topLevelEntries_eq, exists_mapM_eq_ok_iff]
    simp only [exists_toEntry_eq_ok_iff hlater, hscoped, Store.mem_names_topLevel_iff, Store.isSome_module?_iff]
    exact List.forall_mem_map
  · exact afterAll_of_loadless houtcome

theorem frozen_afterAll_sample : (sample.process .empty).1 = .ok []
    ∧ Frozen (sample.process .empty).2 [(.findModule "late", lateFiles), (.process, .empty)]
      ((sample.process .empty).2.afterAll [(.findModule "late", lateFiles), (.process, .empty)]) :=
  ⟨process_sample _, frozen_afterAll (process_sample _) _⟩

theorem findModule_of_processed : (sample.process lateFiles).1 = .ok []
    ∧ ((sample.process lateFiles).2.after lateFiles (.findModule "late")).store.modules
      ≠ (sample.process lateFiles).2.store.modules
    ∧ ((sample.process lateFiles).2.after lateFiles (.findModule "late")).topLevelEntries
      = .error (.notIncluded "late") := by
  refine ⟨process_sample _, ?_, topLevelEntries_late⟩
  obtain ⟨journal, outcome, hset, _⟩ := process_sample_late
  obtain ⟨m, hmodules, _⟩ := @modules_findModule_late ⟨[], [sampleModule], [], [], journal⟩ rfl (by cbv)
  rw [hset]
  change (Store.findModule ⟨[], [sampleModule], [], [], journal⟩ lateFiles "late").2.modules ≠ [sampleModule]
  rw [hmodules]
  simp

end ModuleSet

end Yang

import Yang.Proofs.Format.Order
import Yang.Proofs.ModuleSet.Alike
import Yang.Proofs.ModuleSet.Closed
import Yang.Proofs.Tree.Reordered
import Yang.Proofs.Tree.Restricted

/-!
This module contains sets whose documents have statements in another order. When one of them is processed without a
problem so is the other one, and then their trees are the same but for the order of children, which nothing that is
written shows.
-/

namespace Yang

namespace Store

/--
Whether two stores have the same documents in the same order but for the order of statements inside of documents.
-/
structure Reordered (store store' : Store) : Prop where
  searchPath : store.searchPath = store'.searchPath
  searched : store.searched = store'.searched
  modules : List.Forall₂ (fun m m' => Document.Reordered (.main m) (.main m')) store.modules store'.modules
  submodules : List.Forall₂ (fun s s' => Document.Reordered (.part s) (.part s')) store.submodules store'.submodules

theorem Reordered.refl (store : Store) : store.Reordered store where
  searchPath := rfl
  searched := rfl
  modules := List.forall₂_same.2 fun _ _ => .refl _
  submodules := List.forall₂_same.2 fun _ _ => .refl _

theorem Reordered.symm {store store' : Store} (h : store.Reordered store') : store'.Reordered store where
  searchPath := h.searchPath.symm
  searched := h.searched.symm
  modules := h.modules.flip.imp fun _ _ hm => hm.symm
  submodules := h.submodules.flip.imp fun _ _ hs => hs.symm

theorem Reordered.alike {store store' : Store} (h : store.Reordered store') :
    store.Alike Document.Reordered store' :=
  Corresponding.alike Document.likeness_reordered ⟨h.searchPath, h.searched, h.modules, h.submodules⟩

end Store

structure Forest.Reordered (forest forest' : Forest) : Prop where
  orderly : Entry.Orderly forest
  orderly' : Entry.Orderly forest'
  restricted : ∀ tree ∈ forest, tree.All (fun head _ => head.Restricted)
  likewise : Entry.Likewise forest forest'

structure Entry.Reordered (tree tree' : Entry) : Prop where
  same : tree.same tree' = true
  inOrder : tree.inOrder = tree'.inOrder

theorem Forest.Reordered.named? {forest forest' : Forest} (h : forest.Reordered forest') (name : String) :
    Option.Rel Entry.Reordered (Entry.named? name forest) (Entry.named? name forest') := by
  cases hfound : Entry.named? name forest with
  | none =>
    rw [Entry.named?_eq_none_iff, h.likewise.names.mem_iff, ← Entry.named?_eq_none_iff] at hfound
    rw [hfound]
    exact .none
  | some tree =>
    obtain ⟨htree, rfl⟩ := Entry.named?_spec hfound
    obtain ⟨tree', htree', hhead, hlike⟩ := h.likewise.exists_like h.orderly h.orderly' htree
    have hname : tree.name = tree'.name := congrArg EntryHead.name hhead
    rw [hname, Entry.named?_of_mem h.orderly'.names htree']
    have ho := h.orderly.children htree
    have ho' := h.orderly'.children htree'
    exact .some ⟨hlike.same ho ho' hhead (h.restricted tree htree), hlike.inOrder_eq ho ho' hhead⟩

inductive Results {α : Type} (r : α → α → Prop) : Except Failure α → Except Failure α → Prop
  | ok {a b : α} (h : r a b) : Results r (.ok a) (.ok b)
  | error (failure : Failure) : Results r (.error failure) (.error failure)

theorem Results.mapM {α β : Type} {r : β → β → Prop} {f g : α → Except Failure β} (h : ∀ a, Results r (f a) (g a))
    (l : List α) : Results (List.Forall₂ r) (l.mapM f) (l.mapM g) := by
  induction l with
  | nil => exact .ok .nil
  | cons a rest ih =>
    rw [List.mapM_cons, List.mapM_cons]
    have ha := h a
    generalize f a = first at ha
    generalize g a = first' at ha
    generalize rest.mapM f = more at ih
    generalize rest.mapM g = more' at ih
    cases ha with
    | error failure => exact .error failure
    | ok hab =>
      cases ih with
      | error failure => exact .error failure
      | ok hrest => exact .ok (.cons hab hrest)

namespace ModuleSet

/--
Whether two sets are the same but for the order of statements inside of documents.
-/
structure Reordered (set set' : ModuleSet) : Prop where
  store : set.store.Reordered set'.store
  outcome : set.outcome = set'.outcome

/--
Whether two sets have equal trees for all names, and every format writes the same of the trees of all modules.
-/
structure SameTrees (set set' : ModuleSet) : Prop where
  toEntry : ∀ name, Results Entry.Reordered (set.toEntry name) (set'.toEntry name)
  topLevelEntries : Results
    (fun trees trees' => ∀ formatter ∈ builtinFormats, formatter.render trees = formatter.render trees')
    set.topLevelEntries set'.topLevelEntries

theorem Reordered.symm {set set' : ModuleSet} (h : set.Reordered set') : set'.Reordered set :=
  ⟨h.store.symm, h.outcome.symm⟩

theorem sameTrees_of_forest {set set' : ModuleSet} {outcome outcome' : Outcome}
    (hnames : set.store.topLevel.map Module.name = set'.store.topLevel.map Module.name)
    (h : set.outcome = some outcome) (h' : set'.outcome = some outcome')
    (hforest : outcome.forest.Reordered outcome'.forest) : SameTrees set set' := by
  have hentry : ∀ name, Results Entry.Reordered (set.toEntry name) (set'.toEntry name) := by
    intro name
    unfold ModuleSet.toEntry
    rw [h, h']
    dsimp only
    have htree := hforest.named? name
    generalize Entry.named? name outcome.forest = tree at htree
    generalize Entry.named? name outcome'.forest = tree' at htree
    cases htree with
    | none => exact .error _
    | some htree => exact .ok htree
  refine ⟨hentry, ?_⟩
  rw [topLevelEntries_eq, topLevelEntries_eq, ← hnames]
  have htrees := Results.mapM hentry (set.store.topLevel.map Module.name)
  generalize (set.store.topLevel.map Module.name).mapM set.toEntry = trees at htrees
  generalize (set.store.topLevel.map Module.name).mapM set'.toEntry = trees' at htrees
  cases htrees with
  | error failure => exact .error failure
  | ok htrees =>
    refine .ok fun formatter hf => render_eq_of_inOrder hf ?_
    rw [← List.forall₂_eq_eq_eq, List.forall₂_map_left_iff, List.forall₂_map_right_iff]
    exact htrees.imp fun _ _ htree => htree.inOrder

section

variable {store store' : Store} {files : Files}

theorem unambiguous_gather (hnil : (gather store files).2.problems = []) :
    ∀ scope ∈ (gather store files).1, scope.Unambiguous := by
  obtain ⟨scopes, hperm, hruns⟩ := gather_spec store files
  intro scope hs
  apply hruns.unambiguous hnil
  · nofun
  · exact hperm.mem_iff.1 hs

theorem gather_reordered (h : store.Reordered store') (hnil : (gather store files).2.problems = [])
    (hforest : (gather store files).1.forest.2.problems = []) :
    (gather store' files).1.forest.2.problems = []
      ∧ (gather store files).1.forest.1.Reordered (gather store' files).1.forest.1 := by
  obtain ⟨hscopes, hg⟩ := gather_alike Document.likeness_reordered h.alike files
  have hreordered : (gather store files).1.Reordered (gather store' files).1 :=
    ⟨hscopes, unambiguous_gather hnil, unambiguous_gather (hg.problems.nil.1 hnil)⟩
  have hc := (sound_gather store files).coherent
  obtain ⟨hnil', ho, ho', hlike⟩ :=
    Scopes.forest_reordered hc (sound_gather store' files).coherent hreordered hforest
  exact ⟨hnil', ho, ho', (Scopes.flourishes_forest hc hforest).restricted, hlike⟩

theorem process_open_reordered (h : store.Reordered store') (hok : (process ⟨store, none⟩ files).1 = .ok []) :
    (process ⟨store', none⟩ files).1 = .ok []
      ∧ SameTrees (process ⟨store, none⟩ files).2 (process ⟨store', none⟩ files).2 := by
  obtain ⟨_, hg⟩ := gather_alike Document.likeness_reordered h.alike files
  rw [process_open] at hok ⊢
  rw [process_open]
  rw [← hg.breakdown]
  split at hok
  · cases hok
  · next hnone =>
    have hnil : (gather store files).2.problems ++ (gather store files).1.forest.2.problems = [] := by
      injection hok
    rw [List.append_eq_nil_iff] at hnil
    obtain ⟨hnil', hforest⟩ := gather_reordered h hnil.1 hnil.2
    refine ⟨?_, ?_⟩
    · dsimp only
      rw [hnil', hg.problems.nil.1 hnil.1]
      rfl
    · apply sameTrees_of_forest _ rfl rfl hforest
      exact hg.store.names_topLevel

end

theorem Arises.reordered_self {outcome : Outcome} (h : Arises outcome) (hnil : outcome.problems = []) :
    outcome.forest.Reordered outcome.forest := by
  obtain ⟨store, files, _, hforest, hproblems⟩ := h
  rw [hnil, eq_comm, List.append_eq_nil_iff] at hproblems
  rw [hforest]
  exact (gather_reordered (.refl store) hproblems.1 hproblems.2).2

theorem process_reordered_of_ok {set set' : ModuleSet} (h : set.Reordered set')
    (harises : ∀ outcome, set.outcome = some outcome → Arises outcome) {files : Files}
    (hok : (set.process files).1 = .ok []) :
    (set'.process files).1 = .ok [] ∧ SameTrees (set.process files).2 (set'.process files).2 := by
  obtain ⟨store, before⟩ := set
  obtain ⟨store', before'⟩ := set'
  obtain ⟨hstore, houtcome⟩ := h
  dsimp only at hstore houtcome
  subst houtcome
  cases before with
  | none => exact process_open_reordered hstore hok
  | some outcome =>
    refine ⟨hok, ?_⟩
    have hnil : outcome.problems = [] := by
      injection hok
    apply sameTrees_of_forest hstore.alike.names_topLevel rfl rfl
    exact (harises outcome rfl).reordered_self hnil

/--
The order of statements inside of documents does not matter. With another order processing finds no problem either, and
all trees are equal but for the order of children, which no format shows.
-/
theorem process_reordered {set set' : ModuleSet} (hr : set.Reachable) (h : set.Reordered set') (files : Files) :
    ((set.process files).1 = .ok [] ↔ (set'.process files).1 = .ok [])
      ∧ ((set.process files).1 = .ok [] → SameTrees (set.process files).2 (set'.process files).2
        ∧ (set.outcome = none → ∃ trees, (set.process files).2.topLevelEntries = .ok trees)) := by
  have harises : ∀ outcome, set.outcome = some outcome → Arises outcome := fun _ => hr.arises
  refine ⟨⟨?_, ?_⟩, fun hok => ⟨?_, ?_⟩⟩
  · intro hok
    exact (process_reordered_of_ok h harises hok).1
  · -- the relation is symmetric, so the other direction is the same
    intro hok
    rw [h.outcome] at harises
    exact (process_reordered_of_ok h.symm harises hok).1
  · exact (process_reordered_of_ok h harises hok).2
  · intro hnone
    obtain ⟨store, before⟩ := set
    cases hnone
    obtain ⟨outcome, _, _, htrees⟩ := (closed_process hok).trees
    exact ⟨outcome.forest, htrees⟩

def sampleContainer : Node :=
  .container ⟨"c", none, none, none⟩ []

def sampleLeaf : Node :=
  .leaf ⟨.free, "b", "string", none, none, true, none, none⟩

def shallowAugment : Augment :=
  ⟨"/p:c", none, [.container ⟨"d", none, none, none⟩ []]⟩

def deepAugment : Augment :=
  ⟨"/p:c/p:d", none, [.leaf ⟨.free, "a", "string", none, none, true, none, none⟩]⟩

theorem process_deep (files : Files) :
    ((plain [sampleContainer, sampleLeaf] [deepAugment, shallowAugment]).process files).1 = .ok [] := by
  unfold plain
  rw [process_open]
  rw [show gather ⟨[], [plainModule _ _], [], [], []⟩ files = _ from gather_plain _ _ files]
  cbv

theorem process_reordered_sample :
    let set := plain [sampleContainer, sampleLeaf] [deepAugment, shallowAugment]
    let set' := plain [sampleLeaf, sampleContainer] [shallowAugment, deepAugment]
    set.Reachable ∧ set.Reordered set' ∧ (set.process .empty).1 = .ok [] ∧ (set'.process .empty).1 = .ok []
      ∧ SameTrees (set.process .empty).2 (set'.process .empty).2 := by
  dsimp only
  have hreordered : (plain [sampleContainer, sampleLeaf] [deepAugment, shallowAugment]).Reordered
      (plain [sampleLeaf, sampleContainer] [shallowAugment, deepAugment]) := by
    refine ⟨⟨rfl, rfl, .cons ⟨rfl, .refl _, .refl Grouping.Reordered.refl _, ?_, ?_⟩ .nil, .nil⟩, rfl⟩
    · exact .swap _ _ _
    · exact ⟨_, List.forall₂_same.2 fun _ _ => .refl _, .swap _ _ _⟩
  obtain ⟨hiff, hsame⟩ := process_reordered (.opened _) hreordered .empty
  have hok := process_deep .empty
  exact ⟨.opened _, hreordered, hok, hiff.1 hok, (hsame hok).1⟩

end ModuleSet

end Yang

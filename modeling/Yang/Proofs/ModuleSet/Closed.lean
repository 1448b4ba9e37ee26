import Yang.Proofs.Gather.Alike
import Yang.Proofs.Gather.Loads
import Yang.Proofs.ModuleSet.Process
import Yang.Proofs.Store.Receives

/-!
This module contains the closure of gathered scopes: every loaded module has one scope and one tree, and every prefix
stands for a module that has a scope.
-/

namespace Yang

theorem eq_ok_of_toOption {ε α : Type} {outcome : Except ε α} {a : α} (h : outcome.toOption = some a) :
    outcome = .ok a := by
  cases outcome with
  | ok b => rw [Option.some.inj h]
  | error e => cases h

namespace Path

theorem hasNul_eq_false {root : String} {names : List String} (h : ∀ name ∈ names, name.toList.contains '\x00' = false) :
    hasNul ⟨root, names⟩ = false := by
  unfold hasNul
  rw [List.any_eq_false]
  intro name hname
  rw [String.contains_char_eq]
  simpa using h name hname

end Path

namespace Files

variable {files : Files} {name : String}

theorem site_single (hnul : name.toList.contains '\x00' = false) (hup : name ≠ "..")
    (hlength : (Text.characters name).utf8ByteSize ≤ nameLimit) : files.site ⟨"", [name]⟩ = .ok [name] := by
  have htext : Path.text ⟨"", [name]⟩ = name := by
    unfold Path.text
    rw [if_neg (fun h => nomatch h.2)]
    exact String.empty_append
  have hlimit : nameLimit ≤ pathLimit := by decide
  unfold site
  rw [Path.hasNul_eq_false (List.forall_mem_singleton.2 hnul), htext, if_neg Bool.false_ne_true]
  rw [if_neg (Nat.not_lt.2 (hlength.trans hlimit))]
  rw [show Path.isAbsolute ⟨"", [name]⟩ = false from rfl, if_neg Bool.false_ne_true]
  unfold walk
  rw [if_neg hup, show isLong name = false from decide_eq_false (Nat.not_lt.2 hlength)]
  rfl

theorem file?_single (hcontent : (files.content? [name]).isSome = true) (hnul : name.toList.contains '\x00' = false)
    (hup : name ≠ "..") (hlength : (Text.characters name).utf8ByteSize ≤ nameLimit) :
    files.file? ⟨"", [name]⟩ = some [name] := by
  unfold file?
  rw [site_single hnul hup hlength]
  exact if_pos hcontent

theorem isTooLong_of_isLong {names : List String} (hnul : Path.hasNul ⟨"", name :: names⟩ = false) (hup : name ≠ "..")
    (hlong : isLong name = true) (files : Files) : files.isTooLong ⟨"", name :: names⟩ = true := by
  have hsite : files.site ⟨"", name :: names⟩ = .error .tooLong := by
    unfold site
    rw [hnul, show Path.isAbsolute ⟨"", name :: names⟩ = false from rfl]
    unfold walk
    rw [if_neg hup, hlong, if_neg Bool.false_ne_true]
    split
    · rfl
    · rfl
  unfold isTooLong
  rw [hsite]

theorem isTooLong_of_file? {path : Path} {site : Site} (h : files.file? path = some site) :
    files.isTooLong path = false := by
  unfold file? at h
  unfold isTooLong
  split at h
  · next hsite => rw [hsite]
  · cases h

end Files

namespace Store

theorem candidates_eq_cons (searchPath : List Path) (name : String) :
    ∃ more, candidates searchPath name = Path.ofText name :: more := by
  have hplaces : ∃ more, places searchPath name = Path.ofText name :: more := by
    unfold places
    dsimp only
    split
    · exact ⟨_, rfl⟩
    · exact ⟨_, rfl⟩
  obtain ⟨more, hmore⟩ := hplaces
  unfold candidates
  split
  · rw [List.flatMap_cons, hmore]
    exact ⟨_, rfl⟩
  · rw [List.flatMap_cons, hmore]
    exact ⟨_, rfl⟩

theorem locate_of_isTooLong {searchPath : List Path} {files : Files} {name : String} {path : Path}
    (hpath : Path.ofText name = path) (h : files.isTooLong path = true) :
    locate searchPath files name = .error ⟨.tooLong, path⟩ := by
  obtain ⟨more, hmore⟩ := candidates_eq_cons searchPath name
  unfold locate
  rw [hmore, hpath]
  unfold firstFile
  rw [h]
  rfl

theorem locate_of_file? {searchPath : List Path} {files : Files} {name : String} {path : Path} {site : Site}
    (hpath : Path.ofText name = path) (hsite : files.file? path = some site) :
    locate searchPath files name = .ok (some path) := by
  obtain ⟨more, hmore⟩ := candidates_eq_cons searchPath name
  unfold locate
  rw [hmore, hpath]
  unfold firstFile Files.isFile
  rw [Files.isTooLong_of_file? hsite, hsite]
  rfl

theorem find_of_locate {α : Type} (get : Store → String → Option α) {store : Store} {files : Files}
    {name text : String} {path : Path} {site : Site} {bytes : List UInt8} {documents : List Document}
    (hnone : get store name = none)
    (hlocate : locate store.searchPath files (name ++ schemaSuffix) = .ok (some path))
    (hsite : files.file? path = some site) (hnew : site ∉ store.searched) (hcontent : files.content? site = some bytes)
    (htext : Files.decodeText bytes = .ok text) (hparse : Document.parse text path.text = .ok documents) :
    find get store files name
      = (let marked := { store with searched := site :: store.searched }
        let after := ((marked.note (.loading name path.text)).note (.read path.text)).addAll documents
        (.ok (get after name), after)) := by
  have hfresh : store.fresh? files path = some site := by
    unfold fresh?
    rw [hsite, Option.filter_some, if_pos (by simpa using hnew)]
  have hread : ∀ other : Store, other.readPath files path
      = (.ok documents, (other.note (.read path.text)).addAll documents) := by
    intro other
    unfold readPath
    rw [hsite, Option.bind_some, hcontent]
    dsimp only
    rw [htext]
    dsimp only
    unfold parse
    rw [hparse]
  unfold find
  rw [hnone]
  dsimp only
  unfold load
  rw [hlocate]
  dsimp only
  unfold loadPath
  rw [hfresh]
  dsimp only
  rw [hread]
  rfl

end Store

namespace Scopes

inductive Consulted (scopes : Scopes) : Context → Prop
  | own {scope : Scope} {context : Context} (hs : scope ∈ scopes) (hc : context ∈ scope.contexts) :
    Consulted scopes context
  | found {α : Type} [Defined α] {context : Context} {text : String} {l : Located α} (hc : Consulted scopes context)
    (h : scopes.resolve context text = .ok l) : Consulted scopes l.context

theorem Consulted.mem {scopes : Scopes} {context : Context} (h : scopes.Consulted context) :
    ∃ scope ∈ scopes, context ∈ scope.contexts := by
  induction h with
  | own hs hc => exact ⟨_, hs, hc⟩
  | found _ h _ =>
    obtain ⟨_, scope, _, hscope, hl⟩ := resolve_spec h
    exact ⟨scope, (scope?_spec hscope).1, mem_contexts_of_mem_definitions (find?_spec hl).1⟩

end Scopes

namespace ModuleSet

theorem pairwise_scopedNames_gather (store : Store) (files : Files) :
    (Gathering.scopedNames (gather store files).1).Pairwise (· < ·) := by
  obtain ⟨scopes, hscopes⟩ : ∃ scopes : Scopes, (gather store files).1
      = scopes.mergeSort (fun a b => decide (a.main.name ≤ b.main.name)) := ⟨_, rfl⟩
  have hdistinct := (sound_gather store files).coherent.distinct
  rw [hscopes] at hdistinct ⊢
  unfold Gathering.scopedNames
  rw [List.map_mergeSort (s := fun a b => decide (a ≤ b)) (fun _ _ _ _ => rfl)] at hdistinct ⊢
  apply Text.pairwise_lt_sorted
  exact (List.mergeSort_perm _ _).nodup_iff.1 hdistinct

theorem scopedNames_gather (store : Store) (files : Files) :
    Gathering.scopedNames (gather store files).1 = (gather store files).2.store.topLevel.map Module.name := by
  apply Text.eq_of_pairwise_lt (pairwise_scopedNames_gather store files) (Store.pairwise_topLevel _)
  intro name
  rw [Store.mem_names_topLevel_iff]
  constructor
  · intro h
    obtain ⟨scope, hs, rfl⟩ := List.mem_map.1 h
    rw [(sound_gather store files).first scope hs]
    rfl
  · intro h
    obtain ⟨scopes, hperm, hruns⟩ := gather_spec store files
    have hmem := hruns.complete h
    exact (hperm.map (fun s => s.main.name)).mem_iff.2 hmem

theorem isSome_scope?_gather (store : Store) (files : Files) {scope : Scope} (hs : scope ∈ (gather store files).1)
    {context : Context} (hc : context ∈ scope.contexts) {reference : Option String} {name : String}
    (hname : context.moduleOf? reference = some name) : ((gather store files).1.scope? name).isSome = true := by
  have hsound := sound_gather store files
  have hloaded : ((gather store files).2.store.module? name).isSome = true := by
    cases reference with
    | none =>
      have howner := hsound.coherent.owner scope hs context hc
      cases hname
      rw [howner, hsound.first scope hs]
      rfl
    | some reference =>
      obtain ⟨before, after, heq, _⟩ := List.lookup_eq_some_iff.1 hname
      apply hsound.bound scope hs context hc (reference, name)
      rw [heq]
      exact List.mem_append_right _ List.mem_cons_self
  have hmem : name ∈ Gathering.scopedNames (gather store files).1 := by
    rw [scopedNames_gather]
    exact Store.mem_names_topLevel_iff.2 hloaded
  obtain ⟨known, hk, rfl⟩ := List.mem_map.1 hmem
  rw [Scopes.scope?_eq_some_of_mem hsound.coherent.distinct hk]
  rfl

theorem toEntry_of_named?_eq_none {set : ModuleSet} {outcome : Outcome} {name : String}
    (h : set.outcome = some outcome) (hnone : Entry.named? name outcome.forest = none) :
    set.toEntry name = .error (.notIncluded name) := by
  unfold toEntry
  rw [h]
  dsimp only
  rw [hnone]

theorem mapM_toEntry {set : ModuleSet} {outcome : Outcome} (h : set.outcome = some outcome)
    (hd : (outcome.forest.map Entry.name).Nodup) :
    (outcome.forest.map Entry.name).mapM set.toEntry = .ok outcome.forest := by
  have hentry : ∀ tree ∈ outcome.forest, set.toEntry tree.name = .ok tree := by
    intro tree htree
    unfold toEntry
    rw [h]
    dsimp only
    rw [Entry.named?_of_mem hd htree]
  generalize outcome.forest = trees at hentry
  induction trees with
  | nil => rfl
  | cons tree rest ih =>
    rw [List.forall_mem_cons] at hentry
    rw [List.map_cons, List.mapM_cons, hentry.1, ih hentry.2]
    rfl

theorem topLevelEntries_eq (set : ModuleSet) :
    set.topLevelEntries = (set.store.topLevel.map Module.name).mapM set.toEntry := by
  rw [List.mapM_map]
  rfl

/--
What holds of the scopes that were gathered for a set, and of the set, once it was processed.
-/
structure Closed (scopes : Scopes) (set : ModuleSet) : Prop where
  loaded : ∀ name, name ∈ Gathering.scopedNames scopes ↔ name ∈ set.store.modules.map Module.name
  topLevel : Gathering.scopedNames scopes = set.store.topLevel.map Module.name
  increasing : (Gathering.scopedNames scopes).Pairwise (· < ·)
  trees : ∃ outcome, set.outcome = some outcome ∧ outcome.forest.map Entry.name = Gathering.scopedNames scopes
    ∧ set.topLevelEntries = .ok outcome.forest
  bound : ∀ context, scopes.Consulted context → ∀ reference name, context.moduleOf? reference = some name →
    (scopes.scope? name).isSome = true
  available : ∀ graft ∈ scopes.grafts, ∀ segment target name,
    scopes.moduleOf graft segment ≠ .error (.targetUnavailable target name)

theorem names_forest (scopes : Scopes) : scopes.forest.1.map Entry.name = Gathering.scopedNames scopes := by
  have h := congrArg (List.map EntryHead.name) (Scopes.heads_forest scopes)
  rw [List.map_map, List.map_map] at h
  exact h

theorem closed_gather {store : Store} {files : Files} {set : ModuleSet} {outcome : Outcome}
    (hmodules : set.store.modules = (gather store files).2.store.modules) (houtcome : set.outcome = some outcome)
    (hforest : outcome.forest = (gather store files).1.forest.1) : Closed (gather store files).1 set := by
  have htop : set.store.topLevel = (gather store files).2.store.topLevel := by
    unfold Store.topLevel
    rw [hmodules]
    congr 1
    funext name
    unfold Store.module?
    rw [hmodules]
  have hscoped : Gathering.scopedNames (gather store files).1 = set.store.topLevel.map Module.name := by
    rw [htop]
    apply scopedNames_gather
  have hnames : outcome.forest.map Entry.name = Gathering.scopedNames (gather store files).1 := by
    rw [hforest]
    apply names_forest
  have hincreasing := pairwise_scopedNames_gather store files
  constructor
  · intro name
    rw [hscoped, Store.mem_names_topLevel_iff, Store.isSome_module?_iff]
  · exact hscoped
  · exact hincreasing
  · refine ⟨outcome, houtcome, hnames, ?_⟩
    have hd : (outcome.forest.map Entry.name).Nodup := by
      rw [hnames]
      exact hincreasing.imp fun h => ne_of_lt h
    rw [topLevelEntries_eq, ← hscoped, ← hnames]
    exact mapM_toEntry houtcome hd
  · intro context hc reference name hname
    obtain ⟨scope, hs, hmem⟩ := hc.mem
    exact isSome_scope?_gather store files hs hmem hname
  · intro graft hgraft segment target name
    obtain ⟨scope, hs, hmem⟩ := Scopes.shows_of_mem_grafts hgraft
    unfold Scopes.moduleOf
    split
    · nofun
    · next found hfound =>
      have hsome := isSome_scope?_gather store files hs hmem hfound
      split
      · next hnone =>
        rw [hnone] at hsome
        cases hsome
      · nofun

theorem closed_process {store : Store} {files : Files} {problems : List Diagnostic}
    (hok : (process ⟨store, none⟩ files).1 = .ok problems) :
    Closed (gather store files).1 (process ⟨store, none⟩ files).2 := by
  rw [process_open] at hok ⊢
  split at hok
  · cases hok
  · next hnone =>
    apply closed_gather rfl rfl rfl

/--
The processing of a set that was not processed comes to an end and loads every file at most once for the sake of a
name. It has a result unless it runs into a path that cannot be looked at or a file that cannot be parsed at all, and
with the result there is one tree for every module.
-/
theorem process_closed (store : Store) (files : Files) :
    ∃ loads, store.Loads files (gather store files).2.store loads
      ∧ ((∀ cause, ¬ Store.Escapes files (gather store files).2.store loads cause) →
        ∃ problems, (process ⟨store, none⟩ files).1 = .ok problems)
      ∧ ∀ problems, (process ⟨store, none⟩ files).1 = .ok problems →
        Closed (gather store files).1 (process ⟨store, none⟩ files).2 := by
  obtain ⟨_, _, hruns⟩ := gather_spec store files
  obtain ⟨loads, hloaded, hcause⟩ := hruns.steps.traced
  refine ⟨loads, hloaded, ?_, ?_⟩
  · intro hescapes
    rw [process_open]
    split
    · next cause hbreakdown => exact absurd (hcause cause hbreakdown) (hescapes cause)
    · exact ⟨_, rfl⟩
  · intro problems hok
    exact closed_process hok

theorem process_closed_sample :
    ∃ loads, sample.store.Loads .empty (gather sample.store .empty).2.store loads
      ∧ (sample.process .empty).1 = .ok [] ∧ Closed (gather sample.store .empty).1 (sample.process .empty).2 := by
  obtain ⟨loads, hloads, _, hclosed⟩ := process_closed sample.store .empty
  exact ⟨loads, hloads, process_sample _, hclosed [] (process_sample _)⟩

structure Imports (m : Module) (i : Import) : Prop where
  imports : m.body.imports = [i]
  includes : m.body.includes = []
  typedefs : m.body.typedefs = []
  groupings : m.body.groupings = []
  prefixId : i.prefixId ≠ m.body.prefixId
  other : i.moduleName ≠ m.name

section

variable {files : Files} {store : Store} {m : Module} {i : Import} {fault : FileFault}

theorem scope_of_locate_eq_error (hmodules : store.modules = [m]) (himports : m.body.imports = [i])
    (hincludes : m.body.includes = []) (hid : i.prefixId ≠ m.body.prefixId) (hother : i.moduleName ≠ m.name)
    (hlocate : Store.locate store.searchPath files (i.moduleName ++ schemaSuffix) = .error fault) :
    ∃ problems, Gathering.scope files [] m ⟨store, [], none⟩
      = (⟨m, [.first m.name (.main m)]⟩, [], ⟨store, problems, some (.path fault)⟩) := by
  have hnone : store.module? i.moduleName = none := by
    unfold Store.module?
    rw [hmodules, List.find?_singleton, if_neg]
    simpa using hother.symm
  have hlook : Gathering.look Store.findModule files i.moduleName ⟨store, [], none⟩
      = (none, ⟨store, [], some (.path fault)⟩) := by
    unfold Gathering.look Store.findModule Store.find
    rw [hnone]
    dsimp only
    unfold Store.load
    rw [hlocate]
    rfl
  have hbound : Gathering.bindImports files [] (.first m.name (.main m)) ⟨store, [], none⟩ [i]
      = (.first m.name (.main m), [], ⟨store,
        [(Context.first m.name (.main m)).problem (.importNotFound i.moduleName)], some (.path fault)⟩) := by
    have hfree : ((Context.first m.name (.main m)).prefixes.lookup i.prefixId).isSome = false := by
      change (List.lookup i.prefixId [(m.body.prefixId, m.name)]).isSome = false
      rw [List.lookup_cons, beq_false_of_ne hid]
      rfl
    unfold Gathering.bindImports
    rw [if_neg (show i.prefixId ≠ (Context.first m.name (.main m)).document.body.prefixId from hid), hfree, hlook]
    rfl
  unfold Gathering.scope
  rw [Gathering.closure_alone hincludes]
  dsimp only
  unfold Gathering.contextualise
  dsimp only
  rw [show (Document.main m).body.imports = [i] from himports, hbound]
  dsimp only
  -- names that are defined twice make problems, but change nothing else
  rw [(Gathering.enterAll_spec _ _ _ _).2, (Gathering.enterAll_spec _ _ _ _).2]
  exact ⟨_, rfl⟩

theorem next_singleton (hmodules : store.modules = [m]) :
    Gathering.next store [] [] = some (m, [])
      ∧ ∀ contexts, Gathering.next store [⟨m, contexts⟩] [] = none := by
  have hfirst : store.module? m.name = some m := by
    unfold Store.module?
    rw [hmodules, List.find?_singleton, if_pos (beq_self_eq_true _)]
  have htop : store.topLevel.map Module.name = [m.name] := by
    rw [Store.names_topLevel, hmodules]
    unfold Text.sorted
    rw [List.map_singleton, show [m.name].eraseDups = [m.name] from rfl, List.mergeSort_singleton]
  constructor
  · unfold Gathering.next
    rw [htop]
    unfold Gathering.nextNeeded Gathering.nextNeeded
    rw [hfirst]
    rfl
  · intro contexts
    unfold Gathering.next
    rw [htop]
    unfold Gathering.nextNeeded Gathering.nextNeeded
    rw [hfirst]
    simp [Gathering.scopedNames]

theorem scope_of_findModule {known : List String} {found : Module} {after : Store} (himports : m.body.imports = [i])
    (hincludes : m.body.includes = []) (htypedefs : m.body.typedefs = []) (hgroupings : m.body.groupings = [])
    (hid : i.prefixId ≠ m.body.prefixId) (hfind : store.findModule files i.moduleName = (.ok (some found), after)) :
    Gathering.scope files known m ⟨store, [], none⟩
      = (⟨m, [⟨.main m, m.name, [(m.body.prefixId, m.name), (i.prefixId, i.moduleName)]⟩]⟩,
        if known.contains i.moduleName then [] else [i.moduleName], ⟨after.note (.collected m.name 1), [], none⟩) := by
  have hlook : Gathering.look Store.findModule files i.moduleName ⟨store, [], none⟩
      = (some found, ⟨after, [], none⟩) := by
    unfold Gathering.look
    rw [hfind]
    rfl
  have hfree : ((Context.first m.name (.main m)).prefixes.lookup i.prefixId).isSome = false := by
    change (List.lookup i.prefixId [(m.body.prefixId, m.name)]).isSome = false
    rw [List.lookup_cons, beq_false_of_ne hid]
    rfl
  unfold Gathering.scope
  rw [Gathering.closure_alone hincludes]
  dsimp only
  unfold Gathering.contextualise
  dsimp only
  rw [show (Document.main m).body.imports = [i] from himports]
  rw [show (Document.main m).body.typedefs = [] from htypedefs]
  rw [show (Document.main m).body.groupings = [] from hgroupings]
  unfold Gathering.bindImports
  rw [if_neg (show i.prefixId ≠ (Context.first m.name (.main m)).document.body.prefixId from hid), hfree, hlook]
  cases known.contains i.moduleName <;> rfl

theorem scope_sole (known : List String) (hincludes : m.body.includes = []) (himports : m.body.imports = [])
    (htypedefs : (m.body.typedefs.map Typedef.name).Nodup) (hgroupings : (m.body.groupings.map Grouping.name).Nodup) :
    Gathering.scope files known m ⟨store, [], none⟩
      = (⟨m, [.first m.name (.main m)]⟩, [], ⟨store.note (.collected m.name 1), [], none⟩) := by
  have hnames : ∀ {α : Type} {names : List String}, names.Nodup → repeated (Table.names ([] : Table α)) names = [] :=
    fun h => repeated_eq_nil_iff.2 ⟨h, fun _ _ => List.not_mem_nil⟩
  have htaken : repeated (Table.names ([] : Table Typedef)) ((Document.main m).body.typedefs.map Defined.name) = [] :=
    hnames htypedefs
  have htaken' : repeated (Table.names ([] : Table Grouping)) ((Document.main m).body.groupings.map Defined.name)
      = [] := hnames hgroupings
  unfold Gathering.scope
  rw [Gathering.closure_alone hincludes]
  dsimp only
  unfold Gathering.contextualise
  dsimp only
  rw [show (Document.main m).body.imports = [] from himports]
  rw [(Gathering.enterAll_spec _ _ _ _).2, (Gathering.enterAll_spec _ _ _ _).2, htaken, htaken']
  rfl

theorem gather_sole (hmodules : store.modules = [m]) (hincludes : m.body.includes = []) (himports : m.body.imports = [])
    (htypedefs : (m.body.typedefs.map Typedef.name).Nodup) (hgroupings : (m.body.groupings.map Grouping.name).Nodup) :
    gather store files
      = ([⟨m, [.first m.name (.main m)]⟩], ⟨store.note (.collected m.name 1), [], none⟩) := by
  obtain ⟨hnext, _⟩ := next_singleton hmodules
  obtain ⟨_, hend⟩ := @next_singleton (store.note (.collected m.name 1)) m hmodules
  have hall : Gathering.all files [] [] ⟨store, [], none⟩
      = ([⟨m, [.first m.name (.main m)]⟩], ⟨store.note (.collected m.name 1), [], none⟩) := by
    rw [Gathering.all_of_next_eq_some hnext]
    rw [show Gathering.scopedNames [] = [] from rfl, scope_sole [] hincludes himports htypedefs hgroupings]
    rw [Gathering.all_of_next_eq_none]
    · rfl
    · exact hend _
  unfold gather
  rw [hall]
  dsimp only
  rw [List.mergeSort_singleton]

theorem gather_alone (hmodules : store.modules = [m]) (hincludes : m.body.includes = []) (himports : m.body.imports = [])
    (htypedefs : m.body.typedefs = []) (hgroupings : m.body.groupings = []) :
    gather store files
      = ([⟨m, [.first m.name (.main m)]⟩], ⟨store.note (.collected m.name 1), [], none⟩) := by
  apply gather_sole hmodules hincludes himports
  · rw [htypedefs]
    exact List.nodup_nil
  · rw [hgroupings]
    exact List.nodup_nil

theorem gather_of_locate_eq_error (hmodules : store.modules = [m]) (himports : m.body.imports = [i])
    (hincludes : m.body.includes = []) (hid : i.prefixId ≠ m.body.prefixId) (hother : i.moduleName ≠ m.name)
    (hlocate : Store.locate store.searchPath files (i.moduleName ++ schemaSuffix) = .error fault) :
    ∃ problems, gather store files
      = ([⟨m, [.first m.name (.main m)]⟩], ⟨store, problems, some (.path fault)⟩) := by
  obtain ⟨problems, hscope⟩ := scope_of_locate_eq_error hmodules himports hincludes hid hother hlocate
  obtain ⟨hnext, hend⟩ := next_singleton hmodules
  have hall : Gathering.all files [] [] ⟨store, [], none⟩
      = ([⟨m, [.first m.name (.main m)]⟩], ⟨store, problems, some (.path fault)⟩) := by
    rw [Gathering.all_of_next_eq_some hnext]
    rw [show Gathering.scopedNames [] = [] from rfl, hscope]
    rw [Gathering.all_of_next_eq_none]
    · rfl
    · exact hend _
  refine ⟨problems, ?_⟩
  unfold gather
  rw [hall]
  dsimp only
  rw [List.mergeSort_singleton]

theorem Imports.process (h : Imports m i) (hmodules : store.modules = [m])
    (hlocate : Store.locate store.searchPath files (i.moduleName ++ schemaSuffix) = .error fault) :
    (process ⟨store, none⟩ files).1 = .error (.refused (.breakdown (.path fault))) := by
  obtain ⟨problems, hgather⟩ := gather_of_locate_eq_error hmodules h.imports h.includes h.prefixId h.other hlocate
  rw [process_open, hgather]

end

def importer (name : String) : Module :=
  ⟨"m", "u", ⟨"p", none, none, none, none, [⟨name, "q"⟩], [], [], [], [], [], "m.yaml"⟩⟩

def importerStore (name : String) : Store :=
  ⟨[], [importer name], [], [], []⟩

theorem imports_importer {name : String} (hname : name ≠ "m") : Imports (importer name) ⟨name, "q"⟩ where
  imports := rfl
  includes := rfl
  typedefs := rfl
  groupings := rfl
  prefixId := show "q" ≠ "p" by decide
  other := hname

theorem process_importer {files : Files} {name : String} {fault : FileFault} (hname : name ≠ "m")
    (hlocate : Store.locate [] files (name ++ schemaSuffix) = .error fault) :
    (process ⟨importerStore name, none⟩ files).1 = .error (.refused (.breakdown (.path fault))) :=
  (imports_importer hname).process rfl hlocate

def manyLetters : List Char :=
  List.replicate 300 'a'

def fileLetters : List Char :=
  manyLetters ++ schemaSuffix.toList

theorem length_manyLetters : manyLetters.length = 300 :=
  List.length_replicate

theorem length_fileLetters : fileLetters.length = 305 := by
  unfold fileLetters
  rw [List.length_append, length_manyLetters]
  rfl

theorem ofList_ne_of_length {letters : List Char} {s : String} (h : letters.length ≠ s.toList.length) :
    String.ofList letters ≠ s := by
  rintro rfl
  apply h
  rw [String.toList_ofList]

theorem ofText_fileLetters : Path.ofText (.ofList fileLetters) = ⟨"", [.ofList fileLetters]⟩ := by
  have hpieces : Text.pieces '/' fileLetters = [fileLetters] := by decide +kernel
  have hroot : Path.rootOf fileLetters = "" := by decide
  have hempty : String.ofList fileLetters ≠ "" := ofList_ne_of_length (by rw [length_fileLetters]; decide)
  have hdot : String.ofList fileLetters ≠ "." := ofList_ne_of_length (by rw [length_fileLetters]; decide)
  unfold Path.ofText Text.splitAt
  rw [String.toList_ofList, hpieces, hroot, List.map_singleton, List.filter_singleton]
  rw [bne_iff_ne.2 hempty, bne_iff_ne.2 hdot]
  rfl

theorem isTooLong_fileLetters (files : Files) : files.isTooLong ⟨"", [.ofList fileLetters]⟩ = true := by
  have hlong : Files.isLong (.ofList fileLetters) = true := by
    unfold Files.isLong Text.characters
    rw [String.toList_ofList, String.utf8ByteSize_ofList]
    decide +kernel
  have hnul : Path.hasNul ⟨"", [.ofList fileLetters]⟩ = false := by
    unfold Path.hasNul
    rw [List.any_cons, List.any_nil, String.contains_char_eq, String.toList_ofList]
    decide
  have hup : String.ofList fileLetters ≠ ".." := ofList_ne_of_length (by rw [length_fileLetters]; decide)
  exact Files.isTooLong_of_isLong hnul hup hlong files

theorem locate_manyLetters (files : Files) :
    Store.locate [] files (.ofList manyLetters ++ schemaSuffix) = .error ⟨.tooLong, ⟨"", [.ofList fileLetters]⟩⟩ := by
  apply Store.locate_of_isTooLong _ (isTooLong_fileLetters files)
  rw [← ofText_fileLetters]
  unfold fileLetters
  rw [String.ofList_append, String.ofList_toList]

def lateText : String :=
  "module: late\nnamespace: w\nprefix: q\n"

def lateFiles : Files :=
  ⟨[(["late.yaml"], lateText.toUTF8.data.toList)], []⟩

theorem file?_lateFiles : lateFiles.file? ⟨"", ["late.yaml"]⟩ = some ["late.yaml"] :=
  Files.file?_single rfl (by decide) (by decide) (by decide)

theorem decodeText_lateText : Files.decodeText lateText.toUTF8.data.toList = .ok lateText :=
  eq_ok_of_toOption (by cbv)

def soleModule? : Except Refusal (List Document) → Option Module
  | .ok [.main m] => some m
  | _ => none

theorem soleModule?_eq_some {parsed : Except Refusal (List Document)} {m : Module} (h : soleModule? parsed = some m) :
    parsed = .ok [.main m] := by
  unfold soleModule? at h
  split at h
  · cases h
    rfl
  · cases h

theorem exists_of_any_soleModule? {parsed : Except Refusal (List Document)} {p : Module → Bool}
    (h : (soleModule? parsed).any p = true) : ∃ m, parsed = .ok [.main m] ∧ p m = true := by
  cases hsole : soleModule? parsed with
  | none =>
    rw [hsole] at h
    cases h
  | some m =>
    rw [hsole] at h
    exact ⟨m, soleModule?_eq_some hsole, h⟩

theorem parse_lateText : ∃ m, Document.parse lateText "late.yaml" = .ok [.main m] ∧ m.name = "late" := by
  have h : (soleModule? (Document.parse lateText "late.yaml")).map Module.name = some "late" := by decide +kernel
  obtain ⟨m, hm, hname⟩ := Option.map_eq_some_iff.1 h
  exact ⟨m, soleModule?_eq_some hm, hname⟩

theorem modules_findModule_late {store : Store} (hsearched : store.searched = [])
    (hnone : store.module? "late" = none) :
    ∃ m, (store.findModule lateFiles "late").2.modules = store.modules ++ [m] ∧ m.name = "late" := by
  obtain ⟨m, hparse, hname⟩ := parse_lateText
  have hlocate : Store.locate store.searchPath lateFiles ("late" ++ schemaSuffix) = .ok (some ⟨"", ["late.yaml"]⟩) :=
    Store.locate_of_file? (by cbv) file?_lateFiles
  rw [← show Path.text ⟨"", ["late.yaml"]⟩ = "late.yaml" by cbv] at hparse
  refine ⟨m, ?_, hname⟩
  unfold Store.findModule
  rw [Store.find_of_locate Store.module? hnone hlocate file?_lateFiles (by rw [hsearched]; exact List.not_mem_nil) rfl
    decodeText_lateText hparse]
  exact (Store.receives_addAll _ _).modules

theorem process_sample_late : ∃ journal outcome,
    (sample.process lateFiles).2 = ⟨⟨[], [sampleModule], [], [], journal⟩, some outcome⟩
      ∧ outcome.forest.map Entry.name = ["m"] := by
  unfold sample
  rw [process_open]
  rw [show gather ⟨[], [sampleModule], [], [], []⟩ lateFiles = _ from gather_sample lateFiles]
  refine ⟨_, _, rfl, ?_⟩
  apply names_forest

theorem topLevelEntries_late :
    ((sample.process lateFiles).2.findModule lateFiles "late").2.topLevelEntries = .error (.notIncluded "late") := by
  obtain ⟨journal, outcome, hset, hforest⟩ := process_sample_late
  obtain ⟨m, hmodules, hname⟩ := @modules_findModule_late ⟨[], [sampleModule], [], [], journal⟩ rfl (by cbv)
  have hnames : (Store.findModule ⟨[], [sampleModule], [], [], journal⟩ lateFiles "late").2.topLevel.map Module.name
      = ["late", "m"] := by
    apply Text.eq_of_pairwise_lt (Store.pairwise_topLevel _)
    · rw [List.pairwise_pair]
      cbv
    · intro name
      rw [Store.mem_names_topLevel_iff, Store.isSome_module?_iff, hmodules, List.map_append]
      rw [show List.map Module.name [m] = ["late"] by rw [List.map_singleton, hname]]
      rw [List.mem_append, List.mem_pair, List.mem_singleton]
      exact Or.comm.trans (or_congr_right List.mem_singleton)
  rw [hset, topLevelEntries_eq]
  rw [show (findModule ⟨⟨[], [sampleModule], [], [], journal⟩, some outcome⟩ lateFiles "late").2.store.topLevel.map
    Module.name = ["late", "m"] from hnames, List.mapM_cons]
  have hentry : toEntry (findModule ⟨⟨[], [sampleModule], [], [], journal⟩, some outcome⟩ lateFiles "late").2 "late"
      = .error (.notIncluded "late") := by
    apply toEntry_of_named?_eq_none rfl
    rw [Entry.named?_eq_none_iff, hforest]
    decide
  rw [hentry]
  rfl

theorem process_not_closed :
    (process ⟨importerStore (.ofList manyLetters), none⟩ .empty).1
        = .error (.refused (.breakdown (.path ⟨.tooLong, ⟨"", [.ofList fileLetters]⟩⟩)))
      ∧ (sample.process lateFiles).1 = .ok []
      ∧ ((sample.process lateFiles).2.findModule lateFiles "late").2.topLevelEntries
        = .error (.notIncluded "late") := by
  refine ⟨?_, process_sample _, topLevelEntries_late⟩
  exact process_importer (ofList_ne_of_length (by rw [length_manyLetters]; decide)) (locate_manyLetters .empty)

end ModuleSet

end Yang

import Yang.Library
import Yang.Proofs.ModuleSet.Alike
import Yang.Proofs.Run.Contract

/-!
This module contains the lookup of one module by its name. A module that some source defines has the tree that it has
among all modules of the sources. For a module that no source defines, the file of default modules is one more source.
-/

namespace Yang

namespace Store

variable {before after after' : Store} {documents : List Document}

theorem Receives.agrees (h : Receives before documents after) (h' : Receives before documents after') :
    Agrees after after' where
  searchPath := h.searchPath.trans h'.searchPath.symm
  searched := by
    intro site
    rw [h.searched, h'.searched]
  modules := by
    intro name
    unfold module?
    rw [h.modules, h'.modules]
  submodules := by
    intro name
    unfold submodule?
    rw [h.submodules, h'.submodules]

theorem find?_append_of_covered {α : Type} {p : α → Bool} {l more : List α}
    (h : ∀ a ∈ more, p a = true → (l.find? p).isSome = true) : (l ++ more).find? p = l.find? p := by
  rw [List.find?_append]
  cases hl : l.find? p with
  | some a => rfl
  | none =>
    rw [Option.none_or, List.find?_eq_none]
    intro a ha hp
    have hsome := h a ha hp
    rw [hl] at hsome
    cases hsome

theorem Receives.agrees_again (h : Receives before documents after) (h' : Receives after documents after') :
    Agrees after' after where
  searchPath := h'.searchPath
  searched := by
    intro site
    rw [h'.searched]
  modules := by
    intro name
    unfold module?
    rw [h'.modules]
    apply find?_append_of_covered
    intro m hm hname
    rw [List.find?_isSome, h.modules]
    exact ⟨m, List.mem_append_right _ hm, hname⟩
  submodules := by
    intro name
    unfold submodule?
    rw [h'.submodules]
    apply find?_append_of_covered
    intro s hs hname
    rw [List.find?_isSome, h.submodules]
    exact ⟨s, List.mem_append_right _ hs, hname⟩

theorem Agrees.findModule (h : Agrees after after') (files : Files) (name : String) :
    (after.findModule files name).1 = (after'.findModule files name).1
      ∧ Agrees (after.findModule files name).2 (after'.findModule files name).2 := by
  obtain ⟨houtcome, hstores⟩ := (agrees_iff_alike.1 h).find (fun h => h.modules) (fun _ => rfl) files name
  refine ⟨?_, agrees_iff_alike.2 hstores⟩
  unfold Store.findModule
  rcases houtcome with ⟨refusal, hleft, hright⟩ | ⟨found, found', hleft, hright, hrel⟩
  · rw [hleft, hright]
  · rw [hleft, hright]
    cases hrel with
    | none => rfl
    | some heq => rw [Document.main.inj heq]

end Store

namespace ModuleSet

def treeOf (set : ModuleSet) (files : Files) (name : String) : Except Halt Entry :=
  match set.settle files with
  | (.error halt, _) => .error halt
  | (.ok (), set) => (set.toEntry name).mapError .failed

variable {files : Files} {searchPath : List Path} {sources : List String} {name : String}

theorem ProcessSame.treeOf {set set' : ModuleSet} (h : ProcessSame files set set') (name : String) :
    set.treeOf files name = set'.treeOf files name := by
  have hresult := h.result
  have hentry := h.entries name
  unfold ModuleSet.treeOf settle
  generalize set.process files = processed at hresult hentry
  generalize set'.process files = processed' at hresult hentry
  obtain ⟨outcome, after⟩ := processed
  obtain ⟨outcome', after'⟩ := processed'
  cases hresult
  match outcome with
  | .error failure => rfl
  | .ok (d :: rest) => rfl
  | .ok [] =>
    dsimp only
    rw [show after.toEntry name = after'.toEntry name from hentry]

theorem readAll_append {set set' : ModuleSet} {names : List String} (h : set.readAll files names = ([], none, set'))
    (more : List String) : set.readAll files (names ++ more) = set'.readAll files more := by
  induction names generalizing set with
  | nil =>
    cases h
    rfl
  | cons source rest ih =>
    rw [List.cons_append]
    rw [readAll] at h ⊢
    generalize set.read files source = result at h ⊢
    obtain ⟨outcome, after⟩ := result
    match outcome with
    | .ok documents => exact ih h
    | .error failure =>
      dsimp only at h
      split at h
      · next heq => cases heq
      · cases h
      · cases h

theorem readAll_of_readable {store : Store}
    (h : ∀ source ∈ sources, ∃ documents, Store.fetch store.searchPath files source = .ok documents) :
    ∃ after, readAll ⟨store, none⟩ files sources = ([], none, ⟨after, none⟩)
      ∧ store.Receives (files.documents store.searchPath sources) after := by
  induction sources generalizing store with
  | nil => exact ⟨store, rfl, .nil rfl rfl rfl rfl⟩
  | cons source rest ih =>
    rw [List.forall_mem_cons] at h
    obtain ⟨⟨documents, hfetch⟩, hrest⟩ := h
    obtain ⟨after, hread, hreceives⟩ := read_open store files source
    rw [← hreceives.searchPath] at hrest
    obtain ⟨final, hall, hfinal⟩ := ih hrest
    refine ⟨final, ?_, ?_⟩
    · unfold readAll
      rw [hread, hfetch]
      exact hall
    · rw [hreceives.searchPath] at hfinal
      exact hreceives.trans hfinal

theorem readSources_of_readable
    (h : ∀ source ∈ sources, ∃ documents, Store.fetch searchPath files source = .ok documents) :
    ∃ store, (empty searchPath).readAll files sources = ([], none, ⟨store, none⟩)
      ∧ (empty searchPath).readSources files sources = (.ok (), ⟨store, none⟩)
      ∧ (Store.empty searchPath).Receives (files.documents searchPath sources) store := by
  obtain ⟨store, hall, hreceives⟩ := @readAll_of_readable files sources (.empty searchPath) h
  refine ⟨store, hall, ?_, hreceives⟩
  unfold readSources
  rw [show (empty searchPath).readAll files sources = _ from hall]

theorem readSources_append {store : Store}
    (hall : (empty searchPath).readAll files sources = ([], none, ⟨store, none⟩))
    (hpath : store.searchPath = searchPath) (source : String) :
    ∃ after, store.Receives (Store.gained (Store.fetch searchPath files source)) after
      ∧ (empty searchPath).readSources files (sources ++ [source])
        = match Store.fetch searchPath files source with
          | .ok _ => (.ok (), ⟨after, none⟩)
          | .error refusal => (.error (Failure.refused refusal).halt, ⟨after, none⟩) := by
  obtain ⟨after, hread, hreceives⟩ := read_open store files source
  rw [hpath] at hread hreceives
  refine ⟨after, hreceives, ?_⟩
  unfold readSources
  rw [readAll_append hall, readAll, hread]
  cases Store.fetch searchPath files source with
  | ok documents => rfl
  | error refusal =>
    cases refusal with
    | problem d => rfl
    | breakdown cause => rfl

def findTree (set : ModuleSet) (files : Files) (name : String) : Except Halt Entry :=
  match set.findModule files name with
  | (.error failure, _) => .error failure.halt
  | (.ok none, _) => .error (.problems [⟨"", .moduleNotFound name⟩])
  | (.ok (some _), set) => set.treeOf files name

def ensuredTree (set : ModuleSet) (files : Files) (name : String) : Except Halt Entry :=
  match set.ensure files name with
  | (.error halt, _) => .error halt
  | (.ok (), set) => set.treeOf files name

theorem findTree_of_isSome {store : Store} (h : (store.module? name).isSome = true) :
    findTree ⟨store, none⟩ files name = treeOf ⟨store, none⟩ files name := by
  obtain ⟨m, hm⟩ := Option.isSome_iff_exists.1 h
  unfold findTree findModule loading Store.findModule Store.find
  dsimp only
  rw [hm]
  rfl

theorem findTree_of_agrees {store store' : Store} (h : store.Agrees store') :
    findTree ⟨store, none⟩ files name = findTree ⟨store', none⟩ files name := by
  obtain ⟨houtcome, hstores⟩ := h.findModule files name
  unfold findTree findModule loading
  dsimp only
  generalize store.findModule files name = found at houtcome hstores
  generalize store'.findModule files name = found' at houtcome hstores
  obtain ⟨outcome, after⟩ := found
  obtain ⟨outcome', after'⟩ := found'
  cases houtcome
  match outcome with
  | .error refusal => rfl
  | .ok none => rfl
  | .ok (some m) => exact (processSame_of_agrees hstores files).treeOf name

theorem ensuredTree_of_isSome {store : Store} (h : (store.module? name).isSome = true) :
    ensuredTree ⟨store, none⟩ files name = treeOf ⟨store, none⟩ files name := by
  unfold ensuredTree ensure
  rw [if_pos h]

theorem ensuredTree_of_locate {store : Store} {path : Path} (hnone : (store.module? name).isSome = false)
    (hlocate : Store.locate store.searchPath files defaultModulesFile = .ok (some path)) : ∃ after,
      store.Receives (Store.gained (Store.fetch store.searchPath files defaultModulesFile)) after
        ∧ ensuredTree ⟨store, none⟩ files name
          = match Store.fetch store.searchPath files defaultModulesFile with
            | .ok _ => findTree ⟨after, none⟩ files name
            | .error refusal => .error (Failure.refused refusal).halt := by
  obtain ⟨after, hread, hreceives⟩ :=
    read_open (store.note (.fallingBack name defaultModulesFile)) files defaultModulesFile
  refine ⟨after, (Store.receives_note store _).trans hreceives, ?_⟩
  unfold ensuredTree ensure
  rw [if_neg (Bool.eq_false_iff.1 hnone)]
  unfold fallBack locate
  rw [hlocate]
  dsimp only [Except.mapError, note]
  rw [hread]
  dsimp only [Store.note]
  cases Store.fetch store.searchPath files defaultModulesFile with
  | error refusal => rfl
  | ok documents =>
    dsimp only [Except.mapError, Except.map]
    unfold findTree
    generalize findModule ⟨after, none⟩ files name = found
    obtain ⟨outcome, final⟩ := found
    match outcome with
    | .error failure => rfl
    | .ok none => rfl
    | .ok (some m) => rfl

end ModuleSet

section

variable {files : Files} {searchPath : List Path} {sources : List String} {name : String} {set : ModuleSet}

theorem getModule_of_readSources (h : (ModuleSet.empty searchPath).readSources files sources = (.ok (), set)) :
    (getModule files searchPath name sources).1 = set.ensuredTree files name := by
  unfold getModule ModuleSet.ensuredTree ModuleSet.treeOf
  rw [h]
  dsimp only
  generalize set.ensure files name = ensured
  obtain ⟨outcome, after⟩ := ensured
  match outcome with
  | .error halt => rfl
  | .ok () =>
    dsimp only
    generalize after.settle files = settled
    obtain ⟨outcome, final⟩ := settled
    match outcome with
    | .error halt => rfl
    | .ok () => rfl

theorem loadModules_of_readSources (h : (ModuleSet.empty searchPath).readSources files sources = (.ok (), set)) :
    ((loadModules files searchPath sources).bind fun set => (set.toEntry name).mapError .failed)
      = set.treeOf files name := by
  unfold loadModules ModuleSet.treeOf
  rw [h]
  dsimp only
  generalize set.settle files = settled
  obtain ⟨outcome, final⟩ := settled
  match outcome with
  | .error halt => rfl
  | .ok () => rfl

theorem isSome_module?_of_receives {store : Store}
    (h : (Store.empty searchPath).Receives (files.documents searchPath sources) store) :
    (store.module? name).isSome = true
      ↔ ∃ m, Document.main m ∈ files.documents searchPath sources ∧ m.name = name := by
  rw [Store.isSome_module?_iff, h.modules]
  change name ∈ ([] ++ _).map Module.name ↔ _
  rw [List.nil_append, List.mem_map]
  constructor
  · rintro ⟨m, hm, hname⟩
    obtain ⟨d, hd, hmain⟩ := List.mem_filterMap.1 hm
    cases d with
    | main _ => cases hmain; exact ⟨m, hd, hname⟩
    | part _ => cases hmain
  · rintro ⟨m, hm, hname⟩
    exact ⟨m, List.mem_filterMap.2 ⟨_, hm, rfl⟩, hname⟩

theorem getModule_of_defined
    (hreadable : ∀ source ∈ sources, ∃ documents, Store.fetch searchPath files source = .ok documents)
    (hname : ∃ m, Document.main m ∈ files.documents searchPath sources ∧ m.name = name) :
    (getModule files searchPath name sources).1
      = (loadModules files searchPath sources).bind fun set => (set.toEntry name).mapError .failed := by
  obtain ⟨store, _, hread, hreceives⟩ := ModuleSet.readSources_of_readable hreadable
  rw [getModule_of_readSources hread, loadModules_of_readSources hread]
  exact ModuleSet.ensuredTree_of_isSome ((isSome_module?_of_receives hreceives).2 hname)

theorem getModule_of_undefined {path : Path}
    (hreadable : ∀ source ∈ sources, ∃ documents, Store.fetch searchPath files source = .ok documents)
    (hname : ¬ ∃ m, Document.main m ∈ files.documents searchPath sources ∧ m.name = name)
    (hlocate : Store.locate searchPath files defaultModulesFile = .ok (some path)) :
    (getModule files searchPath name sources).1
      = (getModule files searchPath name (sources ++ [defaultModulesFile])).1 := by
  obtain ⟨store, hall, hread, hreceives⟩ := ModuleSet.readSources_of_readable hreadable
  have hpath : store.searchPath = searchPath := hreceives.searchPath
  have hnone : (store.module? name).isSome = false := by
    rw [Bool.eq_false_iff]
    exact fun hsome => hname ((isSome_module?_of_receives hreceives).1 hsome)
  obtain ⟨after, hafter, htree⟩ := ModuleSet.ensuredTree_of_locate hnone (hpath ▸ hlocate)
  obtain ⟨longer, hlonger, hsources⟩ := ModuleSet.readSources_append hall hpath defaultModulesFile
  rw [getModule_of_readSources hread, htree]
  rw [hpath] at hafter ⊢
  cases hfetch : Store.fetch searchPath files defaultModulesFile with
  | error refusal =>
    rw [hfetch] at hsources
    unfold getModule
    rw [hsources]
  | ok documents =>
    rw [hfetch] at hafter hlonger hsources
    rw [getModule_of_readSources hsources]
    dsimp only
    have hlongerPath : longer.searchPath = searchPath := hlonger.searchPath.trans hpath
    rw [ModuleSet.findTree_of_agrees (hafter.agrees hlonger)]
    cases hsome : (longer.module? name).isSome with
    | true => rw [ModuleSet.findTree_of_isSome hsome, ModuleSet.ensuredTree_of_isSome hsome]
    | false =>
      -- the file is read once more, for the sake of the name
      obtain ⟨final, hfinal, hagain⟩ := ModuleSet.ensuredTree_of_locate hsome (hlongerPath ▸ hlocate)
      rw [hlongerPath, hfetch] at hfinal hagain
      rw [hagain]
      exact (ModuleSet.findTree_of_agrees (hlonger.agrees_again hfinal)).symm

/--
When all sources can be read, a module that one of them defines has the outcome that it has among all modules. For
another one, the file of default modules is one more source when there is such a file. What comes instead of a tree is
problems, unless a text breaks down or a path is too long to be looked at.
-/
theorem getModule_agrees
    (hreadable : ∀ source ∈ sources, ∃ documents, Store.fetch searchPath files source = .ok documents) :
    ((∃ m, Document.main m ∈ files.documents searchPath sources ∧ m.name = name) →
        (getModule files searchPath name sources).1
          = (loadModules files searchPath sources).bind fun set => (set.toEntry name).mapError .failed)
      ∧ ((¬ ∃ m, Document.main m ∈ files.documents searchPath sources ∧ m.name = name) →
        ∀ path, Store.locate searchPath files defaultModulesFile = .ok (some path) →
          (getModule files searchPath name sources).1
            = (getModule files searchPath name (sources ++ [defaultModulesFile])).1)
      ∧ ∀ halt, (getModule files searchPath name sources).1 = .error halt →
        Run.Expected ⟨some name, sources⟩ searchPath files [] halt := by
  refine ⟨?_, ?_, ?_⟩
  · exact getModule_of_defined hreadable
  · exact fun hname path hlocate => getModule_of_undefined hreadable hname hlocate
  · exact fun halt h => @Run.getModule_spec ⟨some name, sources⟩ searchPath files [] name rfl halt h

end

def brokenFiles : Files :=
  ⟨[(["late.yaml"], ModuleSet.lateText.toUTF8.data.toList), (["MODULES.yaml"], [0x7b])], []⟩

theorem file?_brokenFiles {name : String} (h : name = "late.yaml" ∨ name = "MODULES.yaml") :
    brokenFiles.file? ⟨"", [name]⟩ = some [name] := by
  rcases h with rfl | rfl
  · exact Files.file?_single rfl (by decide) (by decide) (by decide)
  · exact Files.file?_single rfl (by decide) (by decide) (by decide)

theorem getModule_agrees_broken :
    (getModule brokenFiles [] "late" ["late.yaml"]).1
        = ((loadModules brokenFiles [] ["late.yaml"]).bind fun set => (set.toEntry "late").mapError .failed)
      ∧ (getModule brokenFiles [] "m" ["late.yaml"]).1
        = (getModule brokenFiles [] "m" ["late.yaml", defaultModulesFile]).1 := by
  obtain ⟨m, hparse, hname⟩ := ModuleSet.parse_lateText
  have hfetch : Store.fetch [] brokenFiles "late.yaml" = .ok [.main m] := by
    rw [Store.fetch_of_file? (by cbv) (file?_brokenFiles (.inl rfl)) rfl ModuleSet.decodeText_lateText,
      ← hparse]
    rw [show Path.text ⟨"", ["late.yaml"]⟩ = "late.yaml" by cbv]
  have hreadable : ∀ source ∈ ["late.yaml"], ∃ documents, Store.fetch [] brokenFiles source = .ok documents := by
    rw [List.forall_mem_singleton]
    exact ⟨_, hfetch⟩
  have hdocuments : brokenFiles.documents [] ["late.yaml"] = [.main m] := by
    unfold Files.documents
    rw [List.flatMap_singleton, hfetch]
    rfl
  have hdefined : ∃ m, Document.main m ∈ brokenFiles.documents [] ["late.yaml"] ∧ m.name = "late" := by
    rw [hdocuments]
    exact ⟨m, List.mem_singleton_self _, hname⟩
  have hundefined : ¬ ∃ m, Document.main m ∈ brokenFiles.documents [] ["late.yaml"] ∧ m.name = "m" := by
    rw [hdocuments]
    rintro ⟨other, hother, hm⟩
    rw [List.mem_singleton, Document.main.injEq] at hother
    rw [hother, hname] at hm
    exact absurd hm (by decide)
  have hlocate : Store.locate [] brokenFiles defaultModulesFile = .ok (some ⟨"", ["MODULES.yaml"]⟩) :=
    Store.locate_of_file? (by cbv) (file?_brokenFiles (.inr rfl))
  exact ⟨(getModule_agrees hreadable).1 hdefined, (getModule_agrees hreadable).2.1 hundefined _ hlocate⟩

theorem getModule_not_listed :
    (∃ m, Store.fetch Run.deepSettings.searchPath Run.importFiles "m.yaml" = .ok [.main m] ∧ m.name = "m")
      ∧ (getModule Run.importFiles Run.deepSettings.searchPath "m" ["m.yaml"]).1
        = .error (.failed (.refused (.breakdown (.path ⟨.tooLong, Run.deepPath⟩)))) := by
  obtain ⟨m, hfetch, hname, himports⟩ := Run.fetch_importFiles Run.deepSettings.searchPath
  refine ⟨⟨m, hfetch, hname⟩, ?_⟩
  have hreadable : ∀ source ∈ ["m.yaml"],
      ∃ documents, Store.fetch Run.deepSettings.searchPath Run.importFiles source = .ok documents := by
    rw [List.forall_mem_singleton]
    exact ⟨_, hfetch⟩
  obtain ⟨store, _, hread, hreceives⟩ := ModuleSet.readSources_of_readable hreadable
  have hmodules : store.modules = [m] := by
    rw [hreceives.modules]
    unfold Files.documents
    rw [List.flatMap_singleton, hfetch]
    rfl
  have hlocate := Run.locate_deep
  rw [show Run.deepSettings.searchPath = store.searchPath from hreceives.searchPath.symm] at hlocate
  have hprocess := himports.process hmodules hlocate
  have hsome : (store.module? "m").isSome = true := by
    rw [Store.isSome_module?_iff, hmodules, ← hname]
    exact List.mem_singleton_self _
  rw [getModule_of_readSources hread, ModuleSet.ensuredTree_of_isSome hsome]
  unfold ModuleSet.treeOf ModuleSet.settle
  generalize ModuleSet.process ⟨store, none⟩ Run.importFiles = processed at hprocess
  obtain ⟨outcome, set⟩ := processed
  cases hprocess
  rfl

end Yang

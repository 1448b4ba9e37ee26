import Yang.Library
import Yang.Proofs.Gather.Widened
import Yang.Proofs.Run.Reading

/-!
This module contains the loading of modules along a longer search path. When nothing is wrong with the modules of some
sources, further directories at the end of the search path change nothing, whatever files are in them.
-/

namespace Yang

namespace ModuleSet

def widen (more : List Path) (set : ModuleSet) : ModuleSet :=
  { set with store := set.store.widen more }

variable {files : Files} {more : List Path} {set set' : ModuleSet} {names : List String}

theorem widen_read {name : String} {documents : List Document} (more : List Path)
    (hname : name.endsWith schemaSuffix = true) (h : (set.read files name).1 = .ok documents) :
    (set.widen more).read files name = (set.read files name).map id (widen more) := by
  unfold read whileOpen at h ⊢
  rw [show (set.widen more).isProcessed = set.isProcessed from rfl]
  split at h
  · cases h
  · next hopen =>
    rw [if_neg hopen, if_neg hopen]
    unfold loading at h ⊢
    have hread := @Store.widen_read set.store files name documents more hname
    dsimp only at h ⊢
    rw [show (set.widen more).store = set.store.widen more from rfl]
    generalize set.store.read files name = result at h hread ⊢
    obtain ⟨outcome, store⟩ := result
    cases outcome with
    | error refusal => cases h
    | ok found =>
      cases h
      rw [hread rfl]
      rfl

theorem widen_readAll (hnames : ∀ name ∈ names, name.endsWith schemaSuffix = true)
    (h : set.readAll files names = ([], none, set')) :
    (set.widen more).readAll files names = ([], none, set'.widen more) := by
  induction names generalizing set with
  | nil =>
    cases h
    rfl
  | cons name rest ih =>
    rw [List.forall_mem_cons] at hnames
    unfold readAll at h ⊢
    have hread := fun documents => @widen_read files set name documents more hnames.1
    generalize set.read files name = result at h hread
    obtain ⟨outcome, after⟩ := result
    cases outcome with
    | ok documents =>
      rw [hread documents rfl]
      exact ih hnames.2 h
    | error failure =>
      -- a file that is not read leaves a problem or ends the reading
      dsimp only at h
      split at h
      · next heq => cases heq
      · cases h
      · cases h

theorem widen_readSources (hnames : ∀ name ∈ names, name.endsWith schemaSuffix = true)
    (h : set.readSources files names = (.ok (), set')) :
    (set.widen more).readSources files names = (.ok (), set'.widen more) := by
  unfold readSources at h ⊢
  split at h
  · cases h
  · next heq =>
    cases h
    rw [widen_readAll hnames heq]
  · cases h

theorem widen_gather {store : Store} (hnil : (gather store files).2.problems = []) :
    gather (store.widen more) files = (gather store files).map id (Gathering.widen more) := by
  have hruns := Gathering.runs_all files [] [] ⟨store, [], none⟩
  have hwiden : Gathering.Runs files [] [] ⟨store.widen more, [], none⟩ _ _ := hruns.widen hnil
  unfold gather
  rw [hwiden.all_eq]
  rfl

theorem widen_process (h : (set.process files).1 = .ok []) :
    (set.widen more).process files = (set.process files).map id (widen more) := by
  obtain ⟨store, outcome⟩ := set
  cases outcome with
  | some outcome => rfl
  | none =>
    change process ⟨store.widen more, none⟩ files = _
    rw [process_open] at h ⊢
    split at h
    · cases h
    · next hnone =>
      have hsilent := Except.ok.inj h
      rw [List.append_eq_nil_iff] at hsilent
      rw [widen_gather hsilent.1]
      dsimp only [Prod.map, id]
      rw [show ((gather store files).2.widen more).breakdown = none from hnone, process_open store files, hnone]
      rfl

end ModuleSet

/--
The modules of sources that are named in full are loaded in the same way along a longer search path: there are the same
records in the same order, and the same trees.
-/
theorem loadModules_append {files : Files} {searchPath : List Path} {sources : List String} {set : ModuleSet}
    (more : List Path) (hsources : ∀ source ∈ sources, source.endsWith schemaSuffix = true)
    (h : loadModules files searchPath sources = .ok set) :
    ∃ wider, loadModules files (searchPath ++ more) sources = .ok wider
      ∧ wider.store.modules = set.store.modules ∧ wider.store.submodules = set.store.submodules
      ∧ wider.topLevelEntries = set.topLevelEntries ∧ ∀ name, wider.toEntry name = set.toEntry name := by
  refine ⟨set.widen more, ?_, rfl, rfl, rfl, fun _ => rfl⟩
  unfold loadModules at h ⊢
  split at h
  · cases h
  · next read hread =>
    have hwider : (ModuleSet.empty (searchPath ++ more)).readSources files sources = (.ok (), read.widen more) :=
      ModuleSet.widen_readSources hsources hread
    rw [hwider]
    dsimp only
    unfold ModuleSet.settle at h ⊢
    have hprocess := @ModuleSet.widen_process files more read
    generalize read.process files = processed at h hprocess
    obtain ⟨outcome, after⟩ := processed
    match outcome with
    | .error failure => cases h
    | .ok (d :: rest) => cases h
    | .ok [] =>
      cases h
      rw [hprocess rfl]
      rfl

def importingText : String :=
  "module: m\nnamespace: u\nprefix: p\nimports:\n- module: late\n  prefix: r\nnodes:\n"
    ++ "- kind: leaf\n  name: a\n  type: string\n"

def twinFiles : Files :=
  ⟨[(["m.yaml"], importingText.toUTF8.data.toList), (["d", "late.yaml"], ModuleSet.lateText.toUTF8.data.toList),
    (["e", "late.yaml"], [0x7b])], [["d"], ["e"]]⟩

theorem site_twinFiles {names : List String}
    (h : names = ["m.yaml"] ∨ names = ["late.yaml"] ∨ names = ["d", "late.yaml"]) :
    twinFiles.site ⟨"", names⟩ = .ok names := by
  rcases h with rfl | rfl | rfl
  · exact Files.site_single (by decide) (by decide) (by decide)
  · exact Files.site_single (by decide) (by decide) (by decide)
  · unfold Files.site
    rw [Path.hasNul_eq_false (by decide)]
    exact eq_ok_of_toOption (by decide)

theorem file?_twinFiles {names : List String} (h : names = ["m.yaml"] ∨ names = ["d", "late.yaml"]) :
    twinFiles.file? ⟨"", names⟩ = some names := by
  unfold Files.file?
  rcases h with rfl | rfl
  · rw [site_twinFiles (.inl rfl)]
    rfl
  · rw [site_twinFiles (.inr (.inr rfl))]
    rfl

theorem locate_twinFiles :
    Store.locate [⟨"", ["d"]⟩] twinFiles ("late" ++ schemaSuffix) = .ok (some ⟨"", ["d", "late.yaml"]⟩) := by
  have hplaces : Store.candidates [⟨"", ["d"]⟩] ("late" ++ schemaSuffix)
      = [⟨"", ["late.yaml"]⟩, ⟨"", ["d", "late.yaml"]⟩] := by
    have hending : ("late" ++ schemaSuffix).endsWith schemaSuffix = true := by cbv
    have hpath : Path.ofText ("late" ++ schemaSuffix) = ⟨"", ["late.yaml"]⟩ := by cbv
    unfold Store.candidates
    rw [if_pos hending, List.flatMap_singleton]
    unfold Store.places
    rw [hpath]
    rfl
  unfold Store.locate
  rw [hplaces]
  unfold Store.firstFile Store.firstFile Files.isFile Files.isTooLong Files.file?
  rw [site_twinFiles (.inr (.inl rfl)), site_twinFiles (.inr (.inr rfl))]
  rfl

def importingModule : Module :=
  ⟨"m", "u", ⟨"p", none, none, none, none, [⟨"late", "r"⟩], [], [], [],
    [.leaf ⟨⟨none, none, none, none, none⟩, "a", "string", none, none, false, none, none⟩], [], "m.yaml"⟩⟩

def importedModule : Module :=
  ⟨"late", "w", ⟨"q", none, none, none, none, [], [], [], [], [], [], "d/late.yaml"⟩⟩

def isImporting : Module → Bool
  | ⟨"m", "u", ⟨"p", none, none, none, none, [⟨"late", "r"⟩], [], [], [],
    [.leaf ⟨⟨none, none, none, none, none⟩, "a", "string", none, none, false, none, none⟩], [], "m.yaml"⟩⟩ => true
  | _ => false

def isImported : Module → Bool
  | ⟨"late", "w", ⟨"q", none, none, none, none, [], [], [], [], [], [], "d/late.yaml"⟩⟩ => true
  | _ => false

theorem parse_importingText : Document.parse importingText "m.yaml" = .ok [.main importingModule] := by
  obtain ⟨m, hparse, hm⟩ := ModuleSet.exists_of_any_soleModule?
    (show (ModuleSet.soleModule? (Document.parse importingText "m.yaml")).any isImporting = true by decide +kernel)
  unfold isImporting at hm
  split at hm
  · exact hparse
  · cases hm

theorem parse_importedModule : Document.parse ModuleSet.lateText "d/late.yaml" = .ok [.main importedModule] := by
  obtain ⟨m, hparse, hm⟩ := ModuleSet.exists_of_any_soleModule?
    (show (ModuleSet.soleModule? (Document.parse ModuleSet.lateText "d/late.yaml")).any isImported = true
      by decide +kernel)
  unfold isImported at hm
  split at hm
  · exact hparse
  · cases hm

theorem fetch_importing (searchPath : List Path) :
    Store.fetch searchPath twinFiles "m.yaml" = .ok [.main importingModule] := by
  have htext : Files.decodeText importingText.toUTF8.data.toList = .ok importingText :=
    eq_ok_of_toOption (by decide +kernel)
  rw [Store.fetch_of_file? (by cbv) (file?_twinFiles (.inl rfl)) rfl htext]
  rw [show Path.text ⟨"", ["m.yaml"]⟩ = "m.yaml" by cbv]
  exact parse_importingText

theorem findModule_twinFiles (journal : List Note) : ∃ more,
    Store.findModule ⟨[⟨"", ["d"]⟩], [importingModule], [], [], journal⟩ twinFiles "late"
      = (.ok (some importedModule),
        ⟨[⟨"", ["d"]⟩], [importingModule, importedModule], [], [["d", "late.yaml"]], more⟩) := by
  have hparse : Document.parse ModuleSet.lateText (Path.text ⟨"", ["d", "late.yaml"]⟩)
      = .ok [.main importedModule] := by
    rw [show Path.text ⟨"", ["d", "late.yaml"]⟩ = "d/late.yaml" by cbv]
    exact parse_importedModule
  unfold Store.findModule
  rw [Store.find_of_locate Store.module? (by cbv) locate_twinFiles (file?_twinFiles (.inr rfl)) List.not_mem_nil rfl
    ModuleSet.decodeText_lateText hparse]
  refine ⟨_, Prod.ext (congrArg Except.ok ?_) rfl⟩
  cbv

theorem gather_twinFiles (journal : List Note) : ∃ more,
    ModuleSet.gather ⟨[⟨"", ["d"]⟩], [importingModule], [], [], journal⟩ twinFiles
      = ([⟨importedModule, [.first "late" (.main importedModule)]⟩,
          ⟨importingModule, [⟨.main importingModule, "m", [("p", "m"), ("r", "late")]⟩]⟩],
        ⟨⟨[⟨"", ["d"]⟩], [importingModule, importedModule], [], [["d", "late.yaml"]], more⟩, [], none⟩) := by
  obtain ⟨more, hfind⟩ := findModule_twinFiles journal
  have hstart : ∀ journal, Gathering.next ⟨[⟨"", ["d"]⟩], [importingModule], [], [], journal⟩ [] []
      = some (importingModule, []) := by
    intro journal
    cbv
  have hneeded : ∀ scope journal, scope.main = importingModule → Gathering.next
      ⟨[⟨"", ["d"]⟩], [importingModule, importedModule], [], [["d", "late.yaml"]], journal⟩ [scope] ["late"]
        = some (importedModule, []) := by
    intro scope journal hscope
    obtain ⟨main, contexts⟩ := scope
    cases hscope
    cbv
  have hend : ∀ first second journal, first.main = importingModule → second.main = importedModule → Gathering.next
      ⟨[⟨"", ["d"]⟩], [importingModule, importedModule], [], [["d", "late.yaml"]], journal⟩ [first, second] []
        = none := by
    intro first second journal hfirst hsecond
    obtain ⟨main, contexts⟩ := first
    obtain ⟨main', contexts'⟩ := second
    cases hfirst
    cases hsecond
    cbv
  unfold ModuleSet.gather
  rw [Gathering.all_of_next_eq_some (hstart _), show Gathering.scopedNames [] = [] from rfl]
  rw [ModuleSet.scope_of_findModule rfl rfl rfl rfl (show "r" ≠ "p" by decide) hfind]
  dsimp only
  rw [Gathering.all_of_next_eq_some (hneeded _ _ rfl)]
  rw [@ModuleSet.scope_sole twinFiles _ importedModule _ rfl rfl List.nodup_nil List.nodup_nil]
  dsimp only
  rw [Gathering.all_of_next_eq_none (hend _ _ _ rfl rfl)]
  refine ⟨_, Prod.ext ?_ rfl⟩
  cbv

theorem process_twinFiles (journal : List Note) : ∃ outcome more,
    ModuleSet.process ⟨⟨[⟨"", ["d"]⟩], [importingModule], [], [], journal⟩, none⟩ twinFiles
      = (.ok [],
        ⟨⟨[⟨"", ["d"]⟩], [importingModule, importedModule], [], [["d", "late.yaml"]], more⟩, some outcome⟩) := by
  obtain ⟨more, hgather⟩ := gather_twinFiles journal
  rw [ModuleSet.process_open, hgather]
  refine ⟨_, _, Prod.ext ?_ rfl⟩
  cbv

theorem loadModules_twinFiles : ∃ set, loadModules twinFiles [⟨"", ["d"]⟩] ["m.yaml"] = .ok set
    ∧ set.store.modules = [importingModule, importedModule] := by
  obtain ⟨store, hread, hreceives⟩ := ModuleSet.read_open (.empty [⟨"", ["d"]⟩]) twinFiles "m.yaml"
  rw [fetch_importing] at hread hreceives
  have hstore : store = ⟨[⟨"", ["d"]⟩], [importingModule], [], [], store.journal⟩ := by
    obtain ⟨_, _, _, _, _⟩ := store
    cases hreceives.searchPath
    cases hreceives.modules
    cases hreceives.submodules
    cases hreceives.searched
    rfl
  obtain ⟨outcome, more, hprocess⟩ := process_twinFiles store.journal
  rw [← hstore] at hprocess
  unfold loadModules ModuleSet.readSources ModuleSet.readAll ModuleSet.empty
  rw [hread]
  dsimp only [Except.mapError, ModuleSet.readAll]
  unfold ModuleSet.settle
  rw [hprocess]
  exact ⟨_, rfl, rfl⟩

theorem loadModules_append_twinFiles : ∃ set wider, loadModules twinFiles [⟨"", ["d"]⟩] ["m.yaml"] = .ok set
    ∧ set.store.modules = [importingModule, importedModule]
    ∧ loadModules twinFiles [⟨"", ["d"]⟩, ⟨"", ["e"]⟩] ["m.yaml"] = .ok wider
    ∧ wider.store.modules = set.store.modules ∧ wider.topLevelEntries = set.topLevelEntries := by
  obtain ⟨set, hload, hloaded⟩ := loadModules_twinFiles
  have hsources : ∀ source ∈ ["m.yaml"], source.endsWith schemaSuffix = true := by
    rw [List.forall_mem_singleton]
    cbv
  obtain ⟨wider, hwider, hmodules, _, hentries, _⟩ := loadModules_append [⟨"", ["e"]⟩] hsources hload
  exact ⟨set, wider, hload, hloaded, hwider, hmodules, hentries⟩

end Yang

import Yang.Proofs.Run.Ends

/-!
This module contains what a run has to show for its arguments: nothing when it stops, and otherwise the trees of all
modules that there are, in its format. The files that it reads are the files of its arguments, and those that cannot be
read are reported one by one.
-/

namespace Yang

namespace Store

theorem filterMap_module? {store : Store} {modules : List Module} (h : ∀ m ∈ modules, store.module? m.name = some m) :
    (modules.map Module.name).filterMap store.module? = modules := by
  induction modules with
  | nil => rfl
  | cons m rest ih =>
    rw [List.forall_mem_cons] at h
    rw [List.map_cons, List.filterMap_cons, h.1]
    dsimp only
    rw [ih h.2]

end Store

namespace ModuleSet

/--
What the entries of a set are that was processed without problems: the trees of the first records of all names, in the
order of the names.
-/
structure Complete (store : Store) (files : Files) (processed : ModuleSet) (entries : List Entry) : Prop where
  trees : entries = (gather store files).1.forest.1
  records : (gather store files).1.map Scope.main = processed.store.topLevel
  first : ∀ m ∈ processed.store.topLevel, processed.store.module? m.name = some m
  names : entries.map Entry.name = processed.store.topLevel.map Module.name
  increasing : (entries.map Entry.name).Pairwise (· < ·)
  modules : ∀ name, name ∈ entries.map Entry.name ↔ name ∈ processed.store.modules.map Module.name
  topLevelEntries : processed.topLevelEntries = .ok entries

variable {store : Store} {files : Files}

theorem modules_process {problems : List Diagnostic} (hok : (process ⟨store, none⟩ files).1 = .ok problems) :
    (process ⟨store, none⟩ files).2.store.modules = (gather store files).2.store.modules := by
  rw [process_open] at hok ⊢
  split at hok
  · cases hok
  · rfl

theorem outcome_process {problems : List Diagnostic} (hok : (process ⟨store, none⟩ files).1 = .ok problems) :
    (process ⟨store, none⟩ files).2.outcome = some ⟨problems, (gather store files).1.forest.1⟩ := by
  rw [process_open] at hok ⊢
  split at hok
  · cases hok
  · cases hok
    rfl

theorem complete_process {problems : List Diagnostic} (hok : (process ⟨store, none⟩ files).1 = .ok problems) :
    Complete store files (process ⟨store, none⟩ files).2 (gather store files).1.forest.1 := by
  have hclosed := closed_process hok
  have hmodules := modules_process hok
  have houtcome := outcome_process hok
  generalize (process ⟨store, none⟩ files).2 = processed at hclosed hmodules houtcome ⊢
  have hfirst : ∀ m ∈ (gather store files).1.map Scope.main, processed.store.module? m.name = some m := by
    intro m hm
    obtain ⟨scope, hs, rfl⟩ := List.mem_map.1 hm
    unfold Store.module?
    rw [hmodules]
    exact (sound_gather store files).first scope hs
  obtain ⟨outcome, hsome, hnames, hentries⟩ := hclosed.trees
  rw [houtcome] at hsome
  cases hsome
  constructor
  · rfl
  · have hscoped := hclosed.topLevel
    rw [Store.names_topLevel] at hscoped
    rw [← Store.filterMap_module? hfirst]
    rw [show ((gather store files).1.map Scope.main).map Module.name
      = Gathering.scopedNames (gather store files).1 from List.map_map ..]
    rw [hscoped]
    rfl
  · exact fun m hm => topLevel_first hm
  · exact hnames.trans hclosed.topLevel
  · dsimp only at hnames
    rw [hnames]
    exact hclosed.increasing
  · intro name
    dsimp only at hnames
    rw [hnames]
    exact hclosed.loaded name
  · exact hentries

end ModuleSet

namespace Run

/--
What a run makes of the files that it has read.
-/
structure Accounts (formatter : Formatter) (files : Files) (store : Store) (report : Report) : Prop where
  problems : ∀ problems, problems ≠ [] → (ModuleSet.process ⟨store, none⟩ files).1 = .ok problems →
    report.result = .error (.problems problems)
  failed : ∀ failure, (ModuleSet.process ⟨store, none⟩ files).1 = .error failure →
    report.result = .error (.failed failure)
  entries : (ModuleSet.process ⟨store, none⟩ files).1 = .ok [] →
    ∃ entries, ModuleSet.Complete store files (ModuleSet.process ⟨store, none⟩ files).2 entries
      ∧ report.pieces = (formatter.write entries).1
      ∧ (∀ text, formatter.render entries = .ok text → report.result = .ok entries ∧ report.output = text)
      ∧ ∀ fault, formatter.render entries = .error fault → report.result = .error (.unformatted fault)

variable {settings : Settings} {formatter : Formatter} {registry : Registry} {files : Files}
  {arguments names : List String} {input : List UInt8}

theorem pieces_of_error {stop : Stop} (h : (run settings registry files arguments input).result = .error stop) :
    (run settings registry files arguments input).pieces = []
      ∨ ∃ formatter entries fault, registry.lookup settings.format = some formatter ∧ stop = .unformatted fault
        ∧ formatter.write entries = ((run settings registry files arguments input).pieces, some fault) := by
  cases hlookup : registry.lookup settings.format with
  | none =>
    unfold run
    rw [hlookup]
    exact .inl rfl
  | some formatter =>
    rw [run_of_lookup hlookup] at h ⊢
    generalize resolve files settings.searchPath (.ofArguments arguments) input = resolved at h ⊢
    obtain ⟨outcome, transcript⟩ := resolved
    cases outcome with
    | error stop => exact .inl rfl
    | ok entries =>
      unfold written at h ⊢
      dsimp only at h ⊢
      split at h
      · cases h
      · next pieces fault hfault =>
        cases h
        exact .inr ⟨formatter, entries, fault, rfl, rfl, hfault⟩

theorem pieces_of_builtin (hlookup : registry.lookup settings.format = some formatter)
    (hbuiltin : formatter ∈ builtinFormats) {stop : Stop}
    (h : (run settings registry files arguments input).result = .error stop) :
    (run settings registry files arguments input).pieces = [] := by
  rcases pieces_of_error h with hnil | ⟨other, entries, fault, hother, _, hfault⟩
  · exact hnil
  · cases hlookup.symm.trans hother
    exact (write_builtin hbuiltin hfault).1

theorem written_of_render {entries : List Entry} {text : String} {lines : List Line}
    (h : formatter.render entries = .ok text) :
    (written formatter (.ok entries, lines)).result = .ok entries
      ∧ (written formatter (.ok entries, lines)).output = text := by
  unfold Formatter.render at h
  unfold written Report.output
  dsimp only
  generalize formatter.write entries = outcome at h ⊢
  obtain ⟨pieces, _ | fault⟩ := outcome
  · exact ⟨rfl, Except.ok.inj h⟩
  · cases h

theorem written_of_fault {entries : List Entry} {fault : FormatFault} {lines : List Line}
    (h : formatter.render entries = .error fault) :
    (written formatter (.ok entries, lines)).result = .error (.unformatted fault) := by
  unfold Formatter.render at h
  unfold written
  dsimp only
  generalize formatter.write entries = outcome at h ⊢
  obtain ⟨pieces, _ | fault⟩ := outcome
  · cases h
  · cases h
    rfl

theorem pieces_written (entries : List Entry) (lines : List Line) :
    (written formatter (.ok entries, lines)).pieces = (formatter.write entries).1 := by
  unfold written
  dsimp only
  generalize formatter.write entries = outcome
  obtain ⟨pieces, _ | fault⟩ := outcome
  · rfl
  · rfl

theorem ofArguments_of_moduleName (h : (Request.ofArguments arguments).moduleName = none) :
    Request.ofArguments arguments = ⟨none, arguments⟩ := by
  unfold Request.ofArguments at h ⊢
  cases arguments with
  | nil => rfl
  | cons first rest =>
    dsimp only at h ⊢
    split at h
    · next hending => rw [if_pos hending]
    · cases h

theorem transcript_written (resolved : Except Stop (List Entry) × List Line) :
    (written formatter resolved).transcript = resolved.2 := by
  unfold written
  split
  · rfl
  · split
    · rfl
    · rfl

theorem problem?_append_notes (lines : List Line) (before after : ModuleSet) :
    (lines ++ notesBetween before after).filterMap Line.problem? = lines.filterMap Line.problem? := by
  rw [List.filterMap_append, filterMap_notesBetween, List.append_nil]

section

variable {searchPath : List Path} {request : Request} {lines : List Line} {store : Store}

theorem resolveAll_of_problems (hload : load (.empty searchPath) files request input = (lines, none, ⟨store, none⟩))
    {problems : List Diagnostic} (hne : problems ≠ []) (h : (ModuleSet.process ⟨store, none⟩ files).1 = .ok problems) :
    (resolveAll files searchPath request input).1 = .error (.problems problems)
      ∧ (resolveAll files searchPath request input).2.filterMap Line.problem? = lines.filterMap Line.problem? := by
  unfold resolveAll ModuleSet.settle
  rw [hload]
  dsimp only
  generalize ModuleSet.process ⟨store, none⟩ files = processed at h
  obtain ⟨outcome, set⟩ := processed
  cases h
  cases problems with
  | nil => exact absurd rfl hne
  | cons d rest => exact ⟨rfl, problem?_append_notes _ _ _⟩

theorem resolveAll_of_failure (hload : load (.empty searchPath) files request input = (lines, none, ⟨store, none⟩))
    {failure : Failure} (h : (ModuleSet.process ⟨store, none⟩ files).1 = .error failure) :
    (resolveAll files searchPath request input).1 = .error (.failed failure)
      ∧ (resolveAll files searchPath request input).2.filterMap Line.problem? = lines.filterMap Line.problem? := by
  have hcause : ∃ cause, failure = .refused (.breakdown cause) := by
    rw [ModuleSet.process_open] at h
    split at h
    · cases h
      exact ⟨_, rfl⟩
    · cases h
  obtain ⟨cause, rfl⟩ := hcause
  unfold resolveAll ModuleSet.settle
  rw [hload]
  dsimp only
  generalize ModuleSet.process ⟨store, none⟩ files = processed at h
  obtain ⟨outcome, set⟩ := processed
  cases h
  exact ⟨rfl, problem?_append_notes _ _ _⟩

theorem resolveAll_of_nil (hload : load (.empty searchPath) files request input = (lines, none, ⟨store, none⟩))
    (h : (ModuleSet.process ⟨store, none⟩ files).1 = .ok []) :
    (resolveAll files searchPath request input).1 = .ok (ModuleSet.gather store files).1.forest.1
      ∧ (resolveAll files searchPath request input).2.filterMap Line.problem? = lines.filterMap Line.problem? := by
  have hentries := (ModuleSet.complete_process h).topLevelEntries
  unfold resolveAll ModuleSet.settle
  rw [hload]
  dsimp only
  generalize ModuleSet.process ⟨store, none⟩ files = processed at h hentries
  obtain ⟨outcome, set⟩ := processed
  cases h
  dsimp only at hentries ⊢
  rw [topLevelEntries_note, hentries]
  exact ⟨rfl, problem?_append_notes _ _ _⟩

theorem accounts_of_load (hload : load (.empty searchPath) files request input = (lines, none, ⟨store, none⟩)) :
    Accounts formatter files store (written formatter (resolveAll files searchPath request input)) := by
  constructor
  · intro problems hne h
    unfold written
    rw [(resolveAll_of_problems hload hne h).1]
  · intro failure h
    unfold written
    rw [(resolveAll_of_failure hload h).1]
  · intro h
    have hresolved := (resolveAll_of_nil hload h).1
    generalize resolveAll files searchPath request input = resolved at hresolved ⊢
    obtain ⟨outcome, lines⟩ := resolved
    cases hresolved
    exact ⟨_, ModuleSet.complete_process h, pieces_written _ _, fun _ => written_of_render, fun _ => written_of_fault⟩

theorem problem?_resolveAll (hload : load (.empty searchPath) files request input = (lines, none, ⟨store, none⟩)) :
    (resolveAll files searchPath request input).2.filterMap Line.problem? = lines.filterMap Line.problem? := by
  cases h : (ModuleSet.process ⟨store, none⟩ files).1 with
  | error failure => exact (resolveAll_of_failure hload h).2
  | ok problems =>
    cases problems with
    | nil => exact (resolveAll_of_nil hload h).2
    | cons d rest => exact (resolveAll_of_problems hload (List.cons_ne_nil d rest) h).2

end

/--
A run in one of the formats that are always there has written nothing when it stops; in any format, it has written only
what the format wrote until it failed. When it has read files, none of which broke down, then what it has processed are
the documents of the files that can be read, in their order, it has reported the problems of the others, in their order,
and it ends with the problems of the processing or with the trees of all modules, written in its format.
-/
theorem run_accounts (settings : Settings) (registry : Registry) (files : Files) (arguments : List String)
    (input : List UInt8) :
    (∀ stop, (run settings registry files arguments input).result = .error stop →
        (run settings registry files arguments input).pieces = []
          ∨ ∃ formatter entries fault, registry.lookup settings.format = some formatter ∧ formatter ∉ builtinFormats
            ∧ stop = .unformatted fault
            ∧ formatter.write entries = ((run settings registry files arguments input).pieces, some fault))
      ∧ ∀ formatter, registry.lookup settings.format = some formatter →
        arguments ≠ [] → (Request.ofArguments arguments).moduleName = none →
        (∀ name ∈ arguments, ∀ cause, Store.fetch settings.searchPath files name ≠ .error (.breakdown cause)) →
        ∃ store, (Store.empty settings.searchPath).Receives (files.documents settings.searchPath arguments) store
          ∧ (run settings registry files arguments input).transcript.filterMap Line.problem?
            = files.problems settings.searchPath arguments
          ∧ Accounts formatter files store (run settings registry files arguments input) := by
  refine ⟨fun stop h => ?_, fun formatter hlookup hne hname hreads => ?_⟩
  · rcases pieces_of_error h with hnil | ⟨formatter, entries, fault, hlookup, hstop, hwrite⟩
    · exact .inl hnil
    · by_cases hbuiltin : formatter ∈ builtinFormats
      · exact .inl (pieces_of_builtin hlookup hbuiltin h)
      · exact .inr ⟨formatter, entries, fault, hlookup, hbuiltin, hstop, hwrite⟩
  · have hrequest := ofArguments_of_moduleName hname
    obtain ⟨lines, store, hlines, hreceives, hproblems⟩ :=
      @readFiles_spec (.empty settings.searchPath) files arguments hreads
    have hload := (load_of_ne_nil hne (.empty settings.searchPath) files input).trans hlines
    refine ⟨store, hreceives, ?_, ?_⟩
    · rw [run_of_lookup hlookup, transcript_written, hrequest]
      exact (problem?_resolveAll hload).trans hproblems
    · rw [run_of_lookup hlookup, hrequest]
      exact accounts_of_load hload

theorem run_accounts_mixed : ∃ formatter, Registry.builtin.lookup plainSettings.format = some formatter
    ∧ (Request.ofArguments ["list.yaml", "late.yaml"]).moduleName = none
    ∧ (∀ name ∈ ["list.yaml", "late.yaml"], ∀ cause, Store.fetch [] mixedFiles name ≠ .error (.breakdown cause))
    ∧ ∃ store, (Store.empty []).Receives (mixedFiles.documents [] ["list.yaml", "late.yaml"]) store
      ∧ (run plainSettings .builtin mixedFiles ["list.yaml", "late.yaml"] []).transcript.filterMap Line.problem?
        = mixedFiles.problems [] ["list.yaml", "late.yaml"]
      ∧ Accounts formatter mixedFiles store
        (run plainSettings .builtin mixedFiles ["list.yaml", "late.yaml"] []) := by
  obtain ⟨formatter, hlookup, _⟩ := lookup_tree
  obtain ⟨_, haccounts⟩ := run_accounts plainSettings .builtin mixedFiles ["list.yaml", "late.yaml"] []
  have hname : (Request.ofArguments ["list.yaml", "late.yaml"]).moduleName = none := by cbv
  exact ⟨formatter, hlookup, hname, reads_mixed,
    haccounts formatter hlookup (List.cons_ne_nil _ _) hname reads_mixed⟩

def importText : String :=
  "module: m\nnamespace: u\nprefix: p\nimports:\n  - module: x\n    prefix: q\n"

def importFiles : Files :=
  ⟨[(["m.yaml"], importText.toUTF8.data.toList)], []⟩

def deepSettings : Settings :=
  ⟨[⟨"", [.ofList ModuleSet.manyLetters]⟩], "tree", none, false⟩

def deepPath : Path :=
  ⟨"", [.ofList ModuleSet.manyLetters, "x.yaml"]⟩

def importsOnly (i : Import) (m : Module) : Bool :=
  m.name == "m" && m.body.prefixId == "p" && m.body.includes.isEmpty && m.body.imports == [i]
    && m.body.typedefs.isEmpty && m.body.groupings.isEmpty

theorem imports_of_importsOnly {m : Module} (h : importsOnly ⟨"x", "q"⟩ m = true) :
    m.name = "m" ∧ ModuleSet.Imports m ⟨"x", "q"⟩ := by
  unfold importsOnly at h
  simp only [Bool.and_eq_true, beq_iff_eq, List.isEmpty_iff] at h
  obtain ⟨⟨⟨⟨⟨hname, hown⟩, hincludes⟩, himports⟩, htypedefs⟩, hgroupings⟩ := h
  refine ⟨hname, ?_⟩
  constructor
  · exact himports
  · exact hincludes
  · exact htypedefs
  · exact hgroupings
  · rw [hown]
    decide
  · rw [hname]
    decide

theorem parse_importText : ∃ m, Document.parse importText "m.yaml" = .ok [.main m] ∧ m.name = "m"
    ∧ ModuleSet.Imports m ⟨"x", "q"⟩ := by
  have h : (ModuleSet.soleModule? (Document.parse importText "m.yaml")).any (importsOnly ⟨"x", "q"⟩) = true := by
    decide +kernel
  obtain ⟨m, hm, himports⟩ := (Option.any_eq_true _ _).1 h
  exact ⟨m, ModuleSet.soleModule?_eq_some hm, imports_of_importsOnly himports⟩

theorem file?_importFiles : importFiles.file? ⟨"", ["m.yaml"]⟩ = some ["m.yaml"] :=
  Files.file?_single rfl (by decide) (by decide) (by decide)

theorem isTooLong_deepPath (files : Files) : files.isTooLong deepPath = true := by
  have hlong : Files.isLong (.ofList ModuleSet.manyLetters) = true := by
    unfold Files.isLong Text.characters
    rw [String.toList_ofList, String.utf8ByteSize_ofList]
    decide +kernel
  have hnul : Path.hasNul deepPath = false := by
    unfold Path.hasNul deepPath
    rw [List.any_cons, List.any_cons, List.any_nil, String.contains_char_eq, String.contains_char_eq,
      String.toList_ofList]
    decide
  have hup : String.ofList ModuleSet.manyLetters ≠ ".." := by
    apply ModuleSet.ofList_ne_of_length
    rw [ModuleSet.length_manyLetters]
    decide
  exact Files.isTooLong_of_isLong hnul hup hlong files

theorem locate_deep : Store.locate deepSettings.searchPath importFiles ("x" ++ schemaSuffix)
    = .error ⟨.tooLong, deepPath⟩ := by
  have hplaces : Store.candidates deepSettings.searchPath ("x" ++ schemaSuffix) = [⟨"", ["x.yaml"]⟩, deepPath] := by
    have hending : ("x" ++ schemaSuffix).endsWith schemaSuffix = true := by cbv
    have hpath : Path.ofText ("x" ++ schemaSuffix) = ⟨"", ["x.yaml"]⟩ := by cbv
    unfold Store.candidates
    rw [if_pos hending, List.flatMap_singleton]
    unfold Store.places
    rw [hpath]
    rfl
  have hsite : importFiles.site ⟨"", ["x.yaml"]⟩ = .ok ["x.yaml"] :=
    Files.site_single (by decide) (by decide) (by decide)
  unfold Store.locate
  rw [hplaces]
  unfold Store.firstFile Store.firstFile
  rw [isTooLong_deepPath]
  unfold Files.isTooLong Files.isFile Files.file?
  rw [hsite]
  rfl

theorem fetch_importFiles (searchPath : List Path) : ∃ m, Store.fetch searchPath importFiles "m.yaml" = .ok [.main m]
    ∧ m.name = "m" ∧ ModuleSet.Imports m ⟨"x", "q"⟩ := by
  obtain ⟨m, hm, hname, himports⟩ := parse_importText
  have htext : Files.decodeText importText.toUTF8.data.toList = .ok importText := eq_ok_of_toOption (by decide +kernel)
  refine ⟨m, ?_, hname, himports⟩
  rw [Store.fetch_of_file? (by cbv) file?_importFiles rfl htext, ← hm]
  rw [show Path.text ⟨"", ["m.yaml"]⟩ = "m.yaml" by cbv]

theorem run_not_accounts : (∃ m, Store.fetch deepSettings.searchPath importFiles "m.yaml" = .ok [.main m])
    ∧ (run deepSettings .builtin importFiles ["m.yaml"] []).result
      = .error (.failed (.refused (.breakdown (.path ⟨.tooLong, deepPath⟩)))) := by
  obtain ⟨m, hfetch, _, himports⟩ := fetch_importFiles deepSettings.searchPath
  obtain ⟨formatter, hlookup, _⟩ := lookup_tree
  refine ⟨⟨m, hfetch⟩, ?_⟩
  have hreads : ∀ name ∈ ["m.yaml"], ∀ cause,
      Store.fetch (Store.empty deepSettings.searchPath).searchPath importFiles name ≠ .error (.breakdown cause) := by
    rw [List.forall_mem_singleton]
    intro cause h
    exact nomatch hfetch.symm.trans h
  obtain ⟨lines, store, hlines, hreceives, _⟩ := readFiles_spec hreads
  have hload := (load_of_ne_nil (List.cons_ne_nil _ _) (.empty deepSettings.searchPath) importFiles []).trans hlines
  have hmodules : store.modules = [m] := by
    rw [hreceives.modules]
    unfold Files.documents
    rw [List.flatMap_singleton]
    rw [show Store.fetch (Store.empty deepSettings.searchPath).searchPath importFiles "m.yaml" = _ from hfetch]
    rfl
  have hlocate := locate_deep
  rw [show deepSettings.searchPath = store.searchPath from hreceives.searchPath.symm] at hlocate
  have hfailure := himports.process hmodules hlocate
  have hrequest : Request.ofArguments ["m.yaml"] = ⟨none, ["m.yaml"]⟩ := by cbv
  have hresolved := (resolveAll_of_failure hload hfailure).1
  rw [run_of_lookup (show Registry.builtin.lookup deepSettings.format = _ from hlookup), hrequest]
  unfold written
  rw [show (resolve importFiles deepSettings.searchPath ⟨none, ["m.yaml"]⟩ []).1 = _ from hresolved]

end Run

end Yang

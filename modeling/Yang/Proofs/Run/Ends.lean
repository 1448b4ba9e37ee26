import Yang.Proofs.Run.Collapse

/-!
This module contains the ends that a run can come to. With one of the formats that are always there it gives entries, or
it stops and says why. Otherwise it broke down: a scalar of a text stands for no value, a name makes a path that is too
long to be looked at, or a number is too long to be written.
-/

namespace Yang

namespace Run

def resolve (files : Files) (searchPath : List Path) (request : Request) (input : List UInt8) :
    Except Stop (List Entry) × List Line :=
  if request.moduleName.isSome then
    resolveNamed files searchPath request
  else
    resolveAll files searchPath request input

/--
The ends that a run can come to. A run that stops for a reason that it does not report broke down.
-/
inductive Ends (request : Request) (settings : Settings) (formatter : Formatter) (files : Files)
    (input : List UInt8) : Except Stop (List Entry) → Prop
  | entries (list : List Entry) : Ends request settings formatter files input (.ok list)
  | reported {stop : Stop} (h : stop.isReported = true) : Ends request settings formatter files input (.error stop)
  | breakdown {cause : Breakdown} (h : Collapses request settings.searchPath files input cause) :
    Ends request settings formatter files input (.error (.failed (.refused (.breakdown cause))))
  | digits {list : List Entry} (hlist : (resolve files settings.searchPath request input).1 = .ok list)
    (hname : formatter.name = "json") (h : renderJson list = .error .tooManyDigits) :
    Ends request settings formatter files input (.error (.unformatted .tooManyDigits))

variable {request : Request} {files : Files} {input : List UInt8} {store : Store} {settings : Settings}
  {formatter : Formatter}

theorem ends_of_expected {halt : Halt} (h : Expected request settings.searchPath files input halt) :
    Ends request settings formatter files input (.error (.ofHalt halt)) := by
  cases h with
  | problems list => exact .reported rfl
  | breakdown hcause => exact .breakdown hcause

theorem readInput_open (hoffered : Offered files input store) : ∃ stop after,
    readInput ⟨store, none⟩ input = (stop, ⟨after, none⟩) ∧ after.searchPath = store.searchPath
      ∧ Offered files input after ∧ ∀ s, stop = some s → Ends request settings formatter files input (.error s) := by
  unfold readInput
  cases htext : Files.decodeText input with
  | error fault => exact ⟨_, store, rfl, rfl, hoffered, fun s h => by cases h; exact .reported rfl⟩
  | ok text =>
    obtain ⟨houtcome, hreceives⟩ := Store.parse_spec store text inputSource
    have hafter : Offered files input (store.parse text inputSource).2 := by
      apply hoffered.receives hreceives
      intro d hd
      cases hparse : Document.parse text inputSource with
      | error refusal =>
        rw [hparse] at hd
        exact nomatch hd
      | ok documents =>
        rw [hparse] at hd
        exact ⟨text, inputSource, documents, .input htext, hparse, hd⟩
    have hpath := hreceives.searchPath
    dsimp only
    unfold ModuleSet.parse ModuleSet.whileOpen ModuleSet.loading
    dsimp only [ModuleSet.isProcessed, Option.isSome_none, Bool.false_eq_true, if_false]
    generalize store.parse text inputSource = parsed at houtcome hpath hafter
    obtain ⟨outcome, after⟩ := parsed
    have hparsed := Document.parsed text inputSource
    rw [← houtcome] at hparsed
    dsimp only at hparsed ⊢
    cases hparsed with
    | documents first rest => exact ⟨none, after, rfl, hpath, hafter, nofun⟩
    | problem cause _ => exact ⟨_, after, rfl, hpath, hafter, fun s h => by cases h; exact .reported rfl⟩
    | breakdown hbreaks =>
      exact ⟨_, after, rfl, hpath, hafter, fun s h => by cases h; exact .breakdown (.scalar (.input htext) hbreaks)⟩

theorem load_open (request : Request) : ∃ lines stop after,
    load (.empty settings.searchPath) files request input = (lines, stop, ⟨after, none⟩)
      ∧ after.searchPath = settings.searchPath ∧ Offered files input after
      ∧ ∀ s, stop = some s → Ends request settings formatter files input (.error s) := by
  have hempty : Offered files input (.empty settings.searchPath) := offered_empty _
  unfold load ModuleSet.empty
  split
  · obtain ⟨stop, after, hread, hpath, hoffered, hstop⟩ :=
      @readInput_open request files input _ settings formatter hempty
    rw [hread]
    exact ⟨_, stop, after, rfl, hpath, hoffered, hstop⟩
  · obtain ⟨lines, stop, after, hread, hdraws, hstop⟩ :=
      readFiles_open (.empty settings.searchPath) files request.files
    have hoffered := hempty.draws hdraws
    obtain ⟨documents, hreceives, _⟩ := hdraws
    rw [hread]
    refine ⟨lines, stop, after, rfl, hreceives.searchPath, hoffered, fun s hs => ?_⟩
    obtain ⟨name, hname, cause, rfl, hfetch⟩ := hstop s hs
    exact .breakdown (collapses_fetch (.argument hname) hfetch)

theorem topLevelEntries_note (set : ModuleSet) (n : Note) : (set.note n).topLevelEntries = set.topLevelEntries := rfl

theorem resolveAll_ends (request : Request) :
    Ends request settings formatter files input (resolveAll files settings.searchPath request input).1 := by
  obtain ⟨lines, stop, loaded, hload, hpath, hoffered, hstop⟩ := @load_open files input settings formatter request
  unfold resolveAll
  rw [hload]
  cases stop with
  | some stop => exact hstop stop rfl
  | none =>
    dsimp only
    generalize hsettle : ModuleSet.settle ⟨loaded, none⟩ files = settled
    obtain ⟨outcome, set⟩ := settled
    obtain ⟨herror, hprocessed⟩ := @settle_spec request _ _ _ hoffered _ _ hsettle
    rw [hpath] at herror
    cases outcome with
    | error halt => exact ends_of_expected (herror halt rfl)
    | ok _ =>
      obtain ⟨hok, rfl⟩ := hprocessed rfl
      obtain ⟨outcome, _, _, hentries⟩ := (ModuleSet.closed_process hok).trees
      dsimp only
      rw [topLevelEntries_note, hentries]
      exact .entries _

theorem resolveNamed_ends (hname : request.moduleName.isSome = true) :
    Ends request settings formatter files input (resolveNamed files settings.searchPath request).1 := by
  unfold resolveNamed
  cases hrequest : request.moduleName with
  | none =>
    rw [hrequest] at hname
    cases hname
  | some name =>
    have hspec := @getModule_spec request settings.searchPath files input name hrequest
    dsimp only
    generalize getModule files settings.searchPath name request.files = found at hspec
    obtain ⟨outcome, set⟩ := found
    cases outcome with
    | error halt => exact ends_of_expected (hspec rfl)
    | ok tree => exact .entries _

theorem resolve_ends (request : Request) :
    Ends request settings formatter files input (resolve files settings.searchPath request input).1 := by
  unfold resolve
  split
  · next h => exact resolveNamed_ends h
  · exact resolveAll_ends request

def written (formatter : Formatter) (resolved : Except Stop (List Entry) × List Line) : Report :=
  match resolved.1 with
  | .error stop => ⟨.error stop, [], resolved.2⟩
  | .ok entries =>
    match formatter.write entries with
    | (pieces, none) => ⟨.ok entries, pieces, resolved.2⟩
    | (pieces, some fault) => ⟨.error (.unformatted fault), pieces, resolved.2⟩

theorem run_of_lookup {registry : Registry} (h : registry.lookup settings.format = some formatter)
    (arguments : List String) :
    run settings registry files arguments input
      = written formatter (resolve files settings.searchPath (.ofArguments arguments) input) := by
  unfold run
  rw [h]
  rfl

theorem write_builtin (h : formatter ∈ builtinFormats) {list : List Entry} {pieces : List String} {fault : FormatFault}
    (hfault : formatter.write list = (pieces, some fault)) :
    pieces = [] ∧ formatter.name = "json" ∧ renderJson list = .error fault := by
  unfold builtinFormats at h
  simp only [List.mem_cons, List.not_mem_nil, or_false] at h
  rcases h with rfl | rfl | rfl | rfl | rfl
  · cases hfault
  · dsimp only at hfault
    unfold writeJson at hfault
    split at hfault
    · cases hfault
    · next hjson =>
      cases hfault
      exact ⟨rfl, rfl, hjson⟩
  · cases hfault
  · cases hfault
  · cases hfault

theorem load_of_ne_nil {names : List String} (h : names ≠ []) (set : ModuleSet) (files : Files) (input : List UInt8) :
    load set files ⟨none, names⟩ input = readFiles set files names := by
  cases names with
  | nil => exact absurd rfl h
  | cons name rest => rfl

theorem resolveAll_of_stop {searchPath : List Path} {lines : List Line} {stop : Stop} {set : ModuleSet}
    (h : load (.empty searchPath) files request input = (lines, some stop, set)) :
    resolveAll files searchPath request input = (.error stop, lines) := by
  unfold resolveAll
  rw [h]

/--
A text gives documents or a problem that is located in its source, unless it breaks down. A run in one of the formats
that are always there gives entries or reports why it stopped, unless it broke down. When no reading of files breaks
down, those with problems are reported, and the documents of all others are there.
-/
theorem run_ends {registry : Registry} (hformat : registry.lookup settings.format = some formatter)
    (hbuiltin : formatter ∈ builtinFormats) (files : Files) (arguments : List String) (input : List UInt8) :
    (∀ text source, Document.Parsed text source (Document.parse text source)
        ∧ ∀ fault, Document.parse text source = .error (.breakdown (.scalar fault)) ↔ Document.Breaks text fault)
      ∧ Ends (.ofArguments arguments) settings formatter files input
        (run settings registry files arguments input).result
      ∧ ∀ names : List String, names ≠ [] →
        (∀ name ∈ names, ∀ cause, Store.fetch settings.searchPath files name ≠ .error (.breakdown cause)) →
        ∃ lines store, load (.empty settings.searchPath) files ⟨none, names⟩ input = (lines, none, ⟨store, none⟩)
          ∧ (Store.empty settings.searchPath).Receives (files.documents settings.searchPath names) store
          ∧ lines.filterMap Line.problem? = files.problems settings.searchPath names := by
  refine ⟨fun text source => ⟨Document.parsed text source, fun fault => ?_⟩, ?_, fun names hnames hreads => ?_⟩
  · rw [Document.parse_eq_breakdown_iff]
    simp
  · have hends := @resolve_ends files input settings formatter (.ofArguments arguments)
    rw [run_of_lookup hformat]
    cases hresolved : resolve files settings.searchPath (.ofArguments arguments) input with
    | mk outcome transcript =>
      rw [hresolved] at hends
      cases outcome with
      | error stop => exact hends
      | ok entries =>
        unfold written
        dsimp only
        split
        · exact .entries entries
        · next fault hfault =>
          obtain ⟨_, hname, hjson⟩ := write_builtin hbuiltin hfault
          cases fault
          exact .digits (congrArg Prod.fst hresolved) hname hjson
  · obtain ⟨lines, store, hlines, hreceives, hproblems⟩ :=
      @readFiles_spec (.empty settings.searchPath) files names hreads
    refine ⟨lines, store, ?_, hreceives, hproblems⟩
    rw [load_of_ne_nil hnames]
    exact hlines

def plainSettings : Settings :=
  ⟨[], "tree", none, false⟩

theorem lookup_tree : ∃ formatter, Registry.builtin.lookup plainSettings.format = some formatter
    ∧ formatter ∈ builtinFormats :=
  ⟨_, rfl, List.mem_cons_self⟩

def undatedText : String :=
  "module: m\nnamespace: 2024-13-45\nprefix: p\n"

def listText : String :=
  "- a\n"

def mixedFiles : Files :=
  ⟨[(["bad.yaml"], undatedText.toUTF8.data.toList), (["list.yaml"], listText.toUTF8.data.toList),
    (["late.yaml"], ModuleSet.lateText.toUTF8.data.toList)], []⟩

def scalarFault? : Except Yaml.Fault (List Yaml.Value) → Option Yaml.ScalarFault
  | .error (.scalar fault) => some fault
  | _ => none

theorem breaks_undatedText : Document.Breaks undatedText (.calendar .month) := by
  have h : scalarFault? (Yaml.load undatedText) = some (.calendar .month) := by decide +kernel
  generalize hload : Yaml.load undatedText = loaded at h
  unfold scalarFault? at h
  split at h
  · cases h
    exact .scalar hload
  · cases h

theorem file?_mixedFiles {name : String} (h : name = "bad.yaml" ∨ name = "list.yaml" ∨ name = "late.yaml") :
    mixedFiles.file? ⟨"", [name]⟩ = some [name] := by
  rcases h with rfl | rfl | rfl
  · exact Files.file?_single rfl (by decide) (by decide) (by decide)
  · exact Files.file?_single rfl (by decide) (by decide) (by decide)
  · exact Files.file?_single rfl (by decide) (by decide) (by decide)

theorem fetch_bad : Store.fetch [] mixedFiles "bad.yaml"
    = .error (.breakdown (.scalar (.calendar .month))) := by
  have htext : Files.decodeText undatedText.toUTF8.data.toList = .ok undatedText :=
    eq_ok_of_toOption (by cbv)
  rw [Store.fetch_of_file? (by cbv) (file?_mixedFiles (.inl rfl)) rfl htext]
  exact Document.parse_of_breaks breaks_undatedText _

theorem fetch_list : Store.fetch [] mixedFiles "list.yaml" = .error (.problem ⟨"list.yaml", .notMapping⟩) := by
  have htext : Files.decodeText listText.toUTF8.data.toList = .ok listText := eq_ok_of_toOption (by cbv)
  have hproblem : Store.problem? (Document.parse listText "list.yaml") = some ⟨"list.yaml", .notMapping⟩ := by
    decide +kernel
  rw [Store.fetch_of_file? (by cbv) (file?_mixedFiles (.inr (.inl rfl))) rfl htext]
  rw [show Path.text ⟨"", ["list.yaml"]⟩ = "list.yaml" by cbv]
  unfold Store.problem? at hproblem
  split at hproblem
  · next hparse => rw [hparse, Option.some.inj hproblem]
  · cases hproblem

theorem fetch_late : ∃ m, Store.fetch [] mixedFiles "late.yaml" = .ok [.main m] := by
  obtain ⟨m, hm, _⟩ := ModuleSet.parse_lateText
  refine ⟨m, ?_⟩
  rw [Store.fetch_of_file? (by cbv) (file?_mixedFiles (.inr (.inr rfl))) rfl
    ModuleSet.decodeText_lateText, ← hm]
  rw [show Path.text ⟨"", ["late.yaml"]⟩ = "late.yaml" by cbv]

theorem reads_mixed : ∀ name ∈ ["list.yaml", "late.yaml"], ∀ cause,
    Store.fetch [] mixedFiles name ≠ .error (.breakdown cause) := by
  obtain ⟨m, hlate⟩ := fetch_late
  rw [List.forall_mem_cons, List.forall_mem_singleton, fetch_list, hlate]
  exact ⟨nofun, nofun⟩

theorem run_ends_mixed : ∃ formatter, Registry.builtin.lookup plainSettings.format = some formatter
    ∧ formatter ∈ builtinFormats
    ∧ Ends (.ofArguments ["list.yaml", "late.yaml"]) plainSettings formatter mixedFiles []
      (run plainSettings .builtin mixedFiles ["list.yaml", "late.yaml"] []).result
    ∧ (∀ name ∈ ["list.yaml", "late.yaml"], ∀ cause, Store.fetch [] mixedFiles name ≠ .error (.breakdown cause))
    ∧ ∃ lines store,
      load (.empty []) mixedFiles ⟨none, ["list.yaml", "late.yaml"]⟩ [] = (lines, none, ⟨store, none⟩)
      ∧ (Store.empty []).Receives (mixedFiles.documents [] ["list.yaml", "late.yaml"]) store
      ∧ lines.filterMap Line.problem? = mixedFiles.problems [] ["list.yaml", "late.yaml"] := by
  obtain ⟨formatter, hlookup, hmem⟩ := lookup_tree
  obtain ⟨_, hends, hload⟩ := run_ends hlookup hmem mixedFiles ["list.yaml", "late.yaml"] []
  exact ⟨formatter, hlookup, hmem, hends, reads_mixed, hload _ (List.cons_ne_nil _ _) reads_mixed⟩

theorem run_not_located : Document.parse undatedText "bad.yaml" = .error (.breakdown (.scalar (.calendar .month)))
    ∧ (∃ m, Store.fetch [] mixedFiles "late.yaml" = .ok [.main m])
    ∧ (run plainSettings .builtin mixedFiles ["bad.yaml", "late.yaml"] []).result
      = .error (.failed (.refused (.breakdown (.scalar (.calendar .month))))) := by
  refine ⟨Document.parse_of_breaks breaks_undatedText _, fetch_late, ?_⟩
  obtain ⟨formatter, hlookup, _⟩ := lookup_tree
  have hrequest : Request.ofArguments ["bad.yaml", "late.yaml"] = ⟨none, ["bad.yaml", "late.yaml"]⟩ := by
    cbv
  obtain ⟨after, notes, _, _, hcons⟩ := readFiles_cons (.empty []) mixedFiles "bad.yaml" ["late.yaml"]
  rw [show (Store.empty []).searchPath = [] from rfl, fetch_bad] at hcons
  have hload := load_of_ne_nil (List.cons_ne_nil "bad.yaml" ["late.yaml"]) (.empty []) mixedFiles []
  have hresolved := resolveAll_of_stop (hload.trans hcons)
  rw [run_of_lookup hlookup, hrequest]
  change (written formatter (resolveAll mixedFiles [] ⟨none, ["bad.yaml", "late.yaml"]⟩ [])).result = _
  rw [hresolved]
  rfl

end Run

end Yang

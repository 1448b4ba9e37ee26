import Yang.Proofs.ModuleSet.Frozen
import Yang.Proofs.Run.Reading

/-!
This module contains the ways in which a run can break down. All documents of a run come from texts that it can read, and
what it looks for is asked for by its arguments or by one of these documents. So a run breaks down only when one of the
texts does, or when the path of a file that is asked for is too long to be looked at.
-/

namespace Yang

namespace Run

inductive Content (files : Files) (input : List UInt8) : String → Prop
  | file {site : Site} {bytes : List UInt8} {text : String} (hcontent : files.content? site = some bytes)
    (h : Files.decodeText bytes = .ok text) : Content files input text
  | input {text : String} (h : Files.decodeText input = .ok text) : Content files input text

def Offers (files : Files) (input : List UInt8) (document : Document) : Prop :=
  ∃ text source documents, Content files input text ∧ Document.parse text source = .ok documents
    ∧ document ∈ documents

inductive Asks (request : Request) (files : Files) (input : List UInt8) : String → Prop
  | argument {name : String} (h : name ∈ request.files) : Asks request files input name
  | module {name : String} (h : request.moduleName = some name) : Asks request files input (name ++ schemaSuffix)
  | default (h : request.moduleName.isSome = true) : Asks request files input defaultModulesFile
  | reference {document : Document} {name : String} (h : Offers files input document)
    (hname : name ∈ document.body.includes ∨ ∃ i ∈ document.body.imports, i.moduleName = name) :
    Asks request files input (name ++ schemaSuffix)

inductive Collapses (request : Request) (searchPath : List Path) (files : Files) (input : List UInt8) :
    Breakdown → Prop
  | path {name : String} {path : Path} (hname : Asks request files input name)
    (h : Store.locate searchPath files name = .error ⟨.tooLong, path⟩) :
    Collapses request searchPath files input (.path ⟨.tooLong, path⟩)
  | scalar {text : String} {fault : Yaml.ScalarFault} (htext : Content files input text)
    (h : Document.Breaks text fault) : Collapses request searchPath files input (.scalar fault)

/--
The halts that can be expected of reading and processing: there are problems, or the run broke down.
-/
inductive Expected (request : Request) (searchPath : List Path) (files : Files) (input : List UInt8) : Halt → Prop
  | problems (list : List Diagnostic) : Expected request searchPath files input (.problems list)
  | breakdown {cause : Breakdown} (h : Collapses request searchPath files input cause) :
    Expected request searchPath files input (.failed (.refused (.breakdown cause)))

def Offered (files : Files) (input : List UInt8) (store : Store) : Prop :=
  ∀ d, store.Loaded d → Offers files input d

variable {request : Request} {searchPath : List Path} {files : Files} {input : List UInt8} {store : Store}

theorem offered_empty (searchPath : List Path) : Offered files input (.empty searchPath) := by
  intro d hd
  cases d with
  | main m => exact nomatch hd
  | part s => exact nomatch hd

theorem Offered.receives {before after : Store} {documents : List Document} (h : Offered files input before)
    (hreceives : before.Receives documents after) (hdocuments : ∀ d ∈ documents, Offers files input d) :
    Offered files input after := by
  intro d hd
  rcases hreceives.loaded hd with hd | hd
  · exact h d hd
  · exact hdocuments d hd

theorem offers_readPath {path : Path} :
    ∀ d ∈ Store.gained (store.readPath files path).1, Offers files input d := by
  intro d hd
  unfold Store.readPath at hd
  split at hd
  · exact nomatch hd
  · next bytes hbytes =>
    obtain ⟨site, _, hcontent⟩ := Option.bind_eq_some_iff.1 hbytes
    split at hd
    · exact nomatch hd
    · next text htext =>
      rw [(Store.parse_spec _ text path.text).1] at hd
      cases hparse : Document.parse text path.text with
      | error refusal =>
        rw [hparse] at hd
        exact nomatch hd
      | ok documents =>
        rw [hparse] at hd
        exact ⟨text, path.text, documents, .file hcontent htext, hparse, hd⟩

theorem offers_fetch {name : String} :
    ∀ d ∈ Store.gained (Store.fetch searchPath files name), Offers files input d := by
  unfold Store.fetch Store.read
  split
  · exact List.forall_mem_nil _
  · exact List.forall_mem_nil _
  · exact offers_readPath

theorem Offered.draws {before after : Store} {names : List String} (h : Offered files input before)
    (hdraws : before.Draws files names after) : Offered files input after := by
  obtain ⟨documents, hreceives, horigin⟩ := hdraws
  apply h.receives hreceives
  intro d hd
  obtain ⟨name, _, hd⟩ := horigin d hd
  exact offers_fetch d hd

theorem Offered.find (h : Offered files input store) {α : Type} (get : Store → String → Option α) (name : String) :
    Offered files input (Store.find get store files name).2 := by
  unfold Store.find
  split
  · exact h
  · dsimp only
    unfold Store.load
    split
    · exact h
    · exact h
    · next path _ =>
      unfold Store.loadPath
      split
      · exact h
      · next site _ =>
        obtain ⟨_, hreceives⟩ := Store.readPath_spec
          (({ store with searched := site :: store.searched } : Store).note (.loading name path.text)) store files path
        apply Offered.receives _ hreceives offers_readPath
        intro d hd
        cases d with
        | main m => exact h _ hd
        | part s => exact h _ hd

theorem Offered.gather (h : Offered files input store) : Offered files input (ModuleSet.gather store files).2.store := by
  obtain ⟨_, _, hruns⟩ := ModuleSet.gather_spec store files
  apply Gathering.Steps.lift (p := fun g => Offered files input g.store) _ hruns.steps h
  rintro g g' hstep hg
  cases hstep with
  | report d => exact hg
  | note name n =>
    unfold Gathering.note
    split
    · exact hg
    · intro d hd
      cases d with
      | main m => exact hg _ hd
      | part s => exact hg _ hd
  | @look _ get _ name _ =>
    rcases Gathering.look_store_or get files name g with hstore | hstore
    · rw [hstore]
      exact hg
    · rw [hstore]
      exact hg.find get name

theorem firstFile_eq_error {paths : List Path} {fault : FileFault} (h : Store.firstFile files paths = .error fault) :
    fault.cause = .tooLong := by
  induction paths with
  | nil => cases h
  | cons path rest ih =>
    unfold Store.firstFile at h
    split at h
    · cases h
      rfl
    · split at h
      · cases h
      · exact ih h

theorem collapses_locate {name : String} {fault : FileFault} (hname : Asks request files input name)
    (h : Store.locate searchPath files name = .error fault) :
    Collapses request searchPath files input (.path fault) := by
  have hcause := firstFile_eq_error h
  obtain ⟨cause, path⟩ := fault
  cases hcause
  exact .path hname h

theorem collapses_readPath {path : Path} {cause : Breakdown}
    (h : (store.readPath files path).1 = .error (.breakdown cause)) :
    Collapses request searchPath files input cause := by
  obtain ⟨site, bytes, text, _, hcontent, htext, hparse⟩ := Store.readPath_eq_breakdown h
  obtain ⟨fault, rfl, hbreaks⟩ := Document.parse_eq_breakdown_iff.1 hparse
  exact .scalar (.file hcontent htext) hbreaks

theorem collapses_fetch {name : String} {cause : Breakdown} (hname : Asks request files input name)
    (h : Store.fetch searchPath files name = .error (.breakdown cause)) :
    Collapses request searchPath files input cause := by
  unfold Store.fetch Store.read at h
  split at h
  · next fault hlocate =>
    cases h
    exact collapses_locate hname hlocate
  · cases h
  · exact collapses_readPath h

theorem find_spec {α : Type} (get : Store → String → Option α) (store : Store) {name : String}
    (hname : Asks request files input (name ++ schemaSuffix)) :
    (∀ found, (Store.find get store files name).1 = .ok found →
        get (Store.find get store files name).2 name = found)
      ∧ ∀ cause, (Store.find get store files name).1 = .error (.breakdown cause) →
        Collapses request store.searchPath files input cause := by
  unfold Store.find
  cases hget : get store name with
  | some found => exact ⟨fun _ h => by cases h; exact hget, nofun⟩
  | none =>
    dsimp only
    generalize hload : store.load files name = loaded
    obtain ⟨outcome, after⟩ := loaded
    cases outcome with
    | ok _ => exact ⟨fun _ h => by cases h; rfl, nofun⟩
    | error refusal =>
      refine ⟨nofun, fun cause h => ?_⟩
      cases h
      unfold Store.load at hload
      split at hload
      · next hlocate =>
        cases hload
        exact collapses_locate hname hlocate
      · cases hload
      · next path _ =>
        unfold Store.loadPath at hload
        split at hload
        · cases hload
        · dsimp only at hload
          generalize hread : Store.readPath _ files path = read at hload
          obtain ⟨outcome, final⟩ := read
          cases outcome with
          | ok _ => cases hload
          | error refusal =>
            cases hload
            exact collapses_readPath (congrArg Prod.fst hread)

theorem expected_refused {refusal : Refusal}
    (h : ∀ cause, refusal = .breakdown cause → Collapses request searchPath files input cause) :
    Expected request searchPath files input (Failure.refused refusal).halt := by
  cases refusal with
  | problem d => exact .problems _
  | breakdown cause => exact .breakdown (h cause rfl)

theorem process_eq_error (hoffered : Offered files input store) {failure : Failure}
    (h : (ModuleSet.process ⟨store, none⟩ files).1 = .error failure) :
    ∃ cause, failure = .refused (.breakdown cause) ∧ Collapses request store.searchPath files input cause := by
  rw [ModuleSet.process_open] at h
  split at h
  · next cause hbreakdown =>
    cases h
    refine ⟨cause, rfl, ?_⟩
    have hlater := hoffered.gather
    obtain ⟨_, _, hruns⟩ := ModuleSet.gather_spec store files
    obtain ⟨loads, _, hcause⟩ := hruns.steps.traced
    rw [← hruns.steps.extends.searchPath]
    cases hcause cause hbreakdown with
    | path hwanted hlocate =>
      obtain ⟨document, hloaded, hname⟩ := hwanted
      exact collapses_locate (.reference (hlater document hloaded) hname) hlocate
    | parse _ hbytes htext hparse =>
      obtain ⟨fault, rfl, hbreaks⟩ := Document.parse_eq_breakdown_iff.1 hparse
      exact .scalar (.file hbytes htext) hbreaks
  · cases h

theorem settle_spec (hoffered : Offered files input store) {outcome : Except Halt Unit} {set : ModuleSet}
    (h : ModuleSet.settle ⟨store, none⟩ files = (outcome, set)) :
    (∀ halt, outcome = .error halt → Expected request store.searchPath files input halt)
      ∧ (outcome = .ok () → (ModuleSet.process ⟨store, none⟩ files).1 = .ok []
        ∧ set = (ModuleSet.process ⟨store, none⟩ files).2) := by
  unfold ModuleSet.settle at h
  split at h
  · next hprocess =>
    cases h
    rw [hprocess]
    exact ⟨nofun, fun _ => ⟨rfl, rfl⟩⟩
  · cases h
    exact ⟨fun halt h => by cases h; exact .problems _, nofun⟩
  · next hprocess =>
    cases h
    obtain ⟨cause, rfl, hcause⟩ := process_eq_error hoffered (congrArg Prod.fst hprocess)
    exact ⟨fun halt h => by cases h; exact .breakdown hcause, nofun⟩

theorem fallBack_spec (store : Store) (hrequest : request.moduleName.isSome = true) (name : String) :
    ∃ outcome after names, ModuleSet.fallBack ⟨store, none⟩ files name = (outcome, ⟨after, none⟩)
      ∧ store.Draws files names after
      ∧ ∀ failure, outcome = .error failure → Expected request store.searchPath files input failure.halt := by
  unfold ModuleSet.fallBack ModuleSet.locate
  cases hlocate : Store.locate store.searchPath files defaultModulesFile with
  | error fault =>
    refine ⟨_, store, [], rfl, .nil _ _, fun failure h => ?_⟩
    cases h
    exact .breakdown (collapses_locate (.default hrequest) hlocate)
  | ok found =>
    cases found with
    | none => exact ⟨_, store, [], rfl, .nil _ _, nofun⟩
    | some path =>
      obtain ⟨after, hread, hreceives⟩ :=
        ModuleSet.read_open (store.note (.fallingBack name defaultModulesFile)) files defaultModulesFile
      have hdraws : store.Draws files [defaultModulesFile] after :=
        .of_receives ((Store.receives_note store _).trans hreceives) []
      dsimp only [Except.mapError, ModuleSet.note]
      rw [hread]
      refine ⟨_, after, _, rfl, hdraws, fun failure h => ?_⟩
      change Except.map _ (Except.mapError _ (Store.fetch store.searchPath _ _)) = _ at h
      cases hfetch : Store.fetch store.searchPath files defaultModulesFile with
      | ok documents =>
        rw [hfetch] at h
        cases h
      | error refusal =>
        rw [hfetch] at h
        cases h
        apply expected_refused
        rintro cause rfl
        exact collapses_fetch (.default hrequest) hfetch

theorem ensure_spec (hoffered : Offered files input store) {name : String} (hrequest : request.moduleName = some name) :
    ∃ outcome after, ModuleSet.ensure ⟨store, none⟩ files name = (outcome, ⟨after, none⟩)
      ∧ after.searchPath = store.searchPath ∧ Offered files input after
      ∧ (∀ halt, outcome = .error halt → Expected request store.searchPath files input halt)
      ∧ (outcome = .ok () → (after.module? name).isSome = true) := by
  unfold ModuleSet.ensure
  split
  · next hsome => exact ⟨_, store, rfl, rfl, hoffered, nofun, fun _ => hsome⟩
  · have hsome : request.moduleName.isSome = true := by rw [hrequest]; rfl
    obtain ⟨outcome, after, names, hfall, hdraws, hfailure⟩ :=
      @fallBack_spec request files input store hsome name
    have hafter := hoffered.draws hdraws
    obtain ⟨documents, hreceives, _⟩ := hdraws
    have hpath := hreceives.searchPath
    rw [hfall]
    cases outcome with
    | error failure =>
      exact ⟨_, after, rfl, hpath, hafter, fun _ h => by cases h; exact hfailure _ rfl, nofun⟩
    | ok _ =>
      obtain ⟨hfound, hcause⟩ := @find_spec request files input _ Store.module? after name (.module hrequest)
      have hextends := Store.extends_find Store.module? after files name
      have hfinal := hafter.find Store.module? name
      dsimp only
      unfold ModuleSet.findModule ModuleSet.loading Store.findModule
      dsimp only
      generalize Store.find Store.module? after files name = found at hfound hcause hextends hfinal
      obtain ⟨found, final⟩ := found
      have hsame : final.searchPath = store.searchPath := hextends.searchPath.trans hpath
      cases found with
      | error refusal =>
        refine ⟨_, final, rfl, hsame, hfinal, fun halt h => ?_, nofun⟩
        cases h
        apply expected_refused
        rintro cause rfl
        rw [← hpath]
        exact hcause cause rfl
      | ok found =>
        cases found with
        | none => exact ⟨_, final, rfl, hsame, hfinal, fun _ h => by cases h; exact .problems _, nofun⟩
        | some m =>
          refine ⟨_, final, rfl, hsame, hfinal, nofun, fun _ => ?_⟩
          rw [hfound _ rfl]
          rfl

theorem exists_toEntry_of_process {problems : List Diagnostic}
    (hok : (ModuleSet.process ⟨store, none⟩ files).1 = .ok problems) {name : String}
    (hname : (store.module? name).isSome = true) :
    ∃ tree, (ModuleSet.process ⟨store, none⟩ files).2.toEntry name = .ok tree := by
  obtain ⟨m, hm⟩ := Option.isSome_iff_exists.1 hname
  have hclosed := ModuleSet.closed_process hok
  have hmem : name ∈ (ModuleSet.process ⟨store, none⟩ files).2.store.modules.map Module.name := by
    obtain ⟨_, _, hruns⟩ := ModuleSet.gather_spec store files
    rw [ModuleSet.process_open] at hok ⊢
    split at hok
    · cases hok
    · next hnone =>
      rw [← Store.isSome_module?_iff]
      change ((ModuleSet.gather store files).2.store.module? name).isSome = true
      rw [hruns.steps.extends.module? hm]
      rfl
  obtain ⟨outcome, houtcome, hnames, _⟩ := hclosed.trees
  rw [ModuleSet.exists_toEntry_eq_ok_iff houtcome, hnames]
  exact (hclosed.loaded name).2 hmem

theorem getModule_spec {name : String} (hrequest : request.moduleName = some name) {halt : Halt}
    (h : (getModule files searchPath name request.files).1 = .error halt) :
    Expected request searchPath files input halt := by
  unfold getModule ModuleSet.readSources ModuleSet.empty at h
  obtain ⟨problems, failure, read, hread, hdraws, hfailure⟩ :=
    ModuleSet.readAll_open (.empty searchPath) files request.files
  have hoffered := @Offered.draws files input _ _ _ (offered_empty searchPath) hdraws
  obtain ⟨documents, hreceives, _⟩ := hdraws
  have hpath : read.searchPath = searchPath := hreceives.searchPath
  rw [hread] at h
  cases failure with
  | some failure =>
    cases h
    obtain ⟨source, hsource, cause, rfl, hfetch⟩ := hfailure failure rfl
    exact .breakdown (collapses_fetch (.argument hsource) hfetch)
  | none =>
    cases problems with
    | cons d rest =>
      cases h
      exact .problems _
    | nil =>
      obtain ⟨outcome, ready, hensure, hready, hofferedReady, hhalt, hsome⟩ := ensure_spec hoffered hrequest
      rw [hpath] at hready hhalt
      dsimp only at h
      rw [hensure] at h
      cases outcome with
      | error other =>
        cases h
        exact hhalt halt rfl
      | ok _ =>
        dsimp only at h
        generalize hsettle : ModuleSet.settle ⟨ready, none⟩ files = settled at h
        obtain ⟨outcome, set⟩ := settled
        obtain ⟨herror, hprocessed⟩ := @settle_spec request _ _ _ hofferedReady _ _ hsettle
        rw [hready] at herror
        cases outcome with
        | error other =>
          cases h
          exact herror halt rfl
        | ok _ =>
          obtain ⟨hok, rfl⟩ := hprocessed rfl
          obtain ⟨tree, htree⟩ := exists_toEntry_of_process hok (hsome rfl)
          dsimp only at h
          rw [htree] at h
          cases h

end Run

end Yang

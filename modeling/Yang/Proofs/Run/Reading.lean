import Yang.Proofs.ModuleSet.Closed
import Yang.Proofs.Schema.Parsed
import Yang.Proofs.Store.Receives
import Yang.Run

/-!
This module contains the reading of the files of a run. What is read in a file does not depend on what was read before:
the documents of the files that can be read come into the store in their order, and the others leave nothing but their
problems.
-/

namespace Yang

namespace Store

/--
The documents of the file of a name, or why there are none: what comes of reading it before anything else.
-/
def fetch (searchPath : List Path) (files : Files) (name : String) : Except Refusal (List Document) :=
  (read (.empty searchPath) files name).1

theorem read_spec (store : Store) (files : Files) (name : String) :
    (store.read files name).1 = fetch store.searchPath files name
      ∧ Receives store (gained (fetch store.searchPath files name)) (store.read files name).2 := by
  have hpath : (empty store.searchPath).searchPath = store.searchPath := rfl
  unfold fetch read
  rw [hpath]
  split
  · exact ⟨rfl, .nil rfl rfl rfl rfl⟩
  · exact ⟨rfl, .nil rfl rfl rfl rfl⟩
  · next path _ =>
    obtain ⟨houtcome, hreceives⟩ := readPath_spec store (empty store.searchPath) files path
    rw [← houtcome]
    exact ⟨rfl, hreceives⟩

theorem fetch_of_locate {searchPath : List Path} {files : Files} {name text : String} {path : Path} {site : Site}
    {bytes : List UInt8} (hlocate : locate searchPath files name = .ok (some path)) (hsite : files.file? path = some site)
    (hcontent : files.content? site = some bytes) (htext : Files.decodeText bytes = .ok text) :
    fetch searchPath files name = Document.parse text path.text := by
  unfold fetch read
  rw [show (empty searchPath).searchPath = searchPath from rfl, hlocate]
  dsimp only
  unfold readPath
  rw [hsite, Option.bind_some, hcontent]
  dsimp only
  rw [htext]
  exact (parse_spec _ _ _).1

theorem fetch_of_file? {files : Files} {name text : String} {path : Path} {site : Site} {bytes : List UInt8}
    (hpath : Path.ofText name = path) (hsite : files.file? path = some site) (hcontent : files.content? site = some bytes)
    (htext : Files.decodeText bytes = .ok text) (searchPath : List Path) :
    fetch searchPath files name = Document.parse text path.text := by
  apply fetch_of_locate _ hsite hcontent htext
  exact locate_of_file? hpath hsite

def Draws (before : Store) (files : Files) (names : List String) (after : Store) : Prop :=
  ∃ documents, before.Receives documents after
    ∧ ∀ d ∈ documents, ∃ name ∈ names, d ∈ gained (fetch before.searchPath files name)

theorem Draws.nil (store : Store) (files : Files) : Draws store files [] store :=
  ⟨[], .nil rfl rfl rfl rfl, List.forall_mem_nil _⟩

theorem Draws.of_receives {before after : Store} {files : Files} {name : String}
    (h : before.Receives (gained (fetch before.searchPath files name)) after) (rest : List String) :
    Draws before files (name :: rest) after :=
  ⟨_, h, fun _ hd => ⟨name, List.mem_cons_self, hd⟩⟩

theorem Draws.cons {a b c : Store} {files : Files} {name : String} {rest : List String}
    (hab : a.Receives (gained (fetch a.searchPath files name)) b) (hbc : Draws b files rest c) :
    Draws a files (name :: rest) c := by
  obtain ⟨documents, hreceives, horigin⟩ := hbc
  refine ⟨_, hab.trans hreceives, fun d hd => ?_⟩
  rcases List.mem_append.1 hd with hd | hd
  · exact ⟨name, List.mem_cons_self, hd⟩
  · obtain ⟨other, hother, hd⟩ := horigin d hd
    rw [hab.searchPath] at hd
    exact ⟨other, List.mem_cons_of_mem _ hother, hd⟩

end Store

def Files.documents (files : Files) (searchPath : List Path) (names : List String) : List Document :=
  names.flatMap fun name => Store.gained (Store.fetch searchPath files name)

def Files.problems (files : Files) (searchPath : List Path) (names : List String) : List Diagnostic :=
  names.filterMap fun name => Store.problem? (Store.fetch searchPath files name)

def Line.problem? : Line → Option Diagnostic
  | .note _ => none
  | .problem d => some d

namespace ModuleSet

theorem read_open (store : Store) (files : Files) (name : String) : ∃ after,
    read ⟨store, none⟩ files name = ((Store.fetch store.searchPath files name).mapError .refused, ⟨after, none⟩)
      ∧ store.Receives (Store.gained (Store.fetch store.searchPath files name)) after := by
  obtain ⟨houtcome, hreceives⟩ := Store.read_spec store files name
  refine ⟨_, ?_, hreceives⟩
  rw [← houtcome]
  rfl

theorem readAll_open (store : Store) (files : Files) (names : List String) : ∃ problems failure after,
    readAll ⟨store, none⟩ files names = (problems, failure, ⟨after, none⟩) ∧ store.Draws files names after
      ∧ ∀ f, failure = some f → ∃ name ∈ names, ∃ cause, f = .refused (.breakdown cause)
        ∧ Store.fetch store.searchPath files name = .error (.breakdown cause) := by
  induction names generalizing store with
  | nil => exact ⟨[], none, store, rfl, .nil _ _, nofun⟩
  | cons name rest ih =>
    obtain ⟨after, hread, hreceives⟩ := read_open store files name
    obtain ⟨problems, failure, final, hrest, hdraws, hfailure⟩ := ih after
    rw [hreceives.searchPath] at hfailure
    have hlater : ∀ f, failure = some f → ∃ other ∈ name :: rest, ∃ cause, f = .refused (.breakdown cause)
        ∧ Store.fetch store.searchPath files other = .error (.breakdown cause) := by
      intro f hf
      obtain ⟨other, hother, hcause⟩ := hfailure f hf
      exact ⟨other, List.mem_cons_of_mem _ hother, hcause⟩
    unfold readAll
    rw [hread]
    cases hfetch : Store.fetch store.searchPath files name with
    | ok documents =>
      dsimp only [Except.mapError]
      rw [hrest]
      exact ⟨problems, failure, final, rfl, .cons hreceives hdraws, hlater⟩
    | error refusal =>
      cases refusal with
      | problem d =>
        dsimp only [Except.mapError]
        rw [hrest]
        exact ⟨d :: problems, failure, final, rfl, .cons hreceives hdraws, hlater⟩
      | breakdown cause =>
        refine ⟨[], _, after, rfl, .of_receives hreceives rest, fun f h => ?_⟩
        cases h
        exact ⟨name, List.mem_cons_self, cause, rfl, hfetch⟩

end ModuleSet

namespace Run

theorem filterMap_notesBetween (before after : ModuleSet) :
    (notesBetween before after).filterMap Line.problem? = [] := by
  unfold notesBetween
  rw [List.filterMap_map, List.filterMap_eq_nil_iff]
  exact fun _ _ => rfl

theorem readFiles_cons (store : Store) (files : Files) (name : String) (rest : List String) : ∃ after notes,
    store.Receives (Store.gained (Store.fetch store.searchPath files name)) after
      ∧ notes.filterMap Line.problem? = []
      ∧ readFiles ⟨store, none⟩ files (name :: rest)
        = match Store.fetch store.searchPath files name with
          | .error (.breakdown cause) => (notes, some (.failed (.refused (.breakdown cause))), ⟨after, none⟩)
          | outcome =>
            let r := readFiles ⟨after, none⟩ files rest
            (notes ++ ((Store.problem? outcome).map Line.problem).toList ++ r.1, r.2) := by
  obtain ⟨after, hread, hreceives⟩ := ModuleSet.read_open store files name
  refine ⟨after, notesBetween ⟨store, none⟩ ⟨after, none⟩, hreceives, filterMap_notesBetween _ _, ?_⟩
  rw [readFiles, hread]
  cases Store.fetch store.searchPath files name with
  | ok documents =>
    dsimp only [Except.mapError, Store.problem?, Option.map_none, Option.toList_none]
    rw [List.append_nil]
  | error refusal =>
    cases refusal with
    | problem d =>
      dsimp only [Except.mapError, Store.problem?, Option.map_some, Option.toList_some]
      rw [List.append_assoc]
      rfl
    | breakdown cause => rfl

theorem readFiles_open (store : Store) (files : Files) (names : List String) : ∃ lines stop after,
    readFiles ⟨store, none⟩ files names = (lines, stop, ⟨after, none⟩) ∧ store.Draws files names after
      ∧ ∀ s, stop = some s → ∃ name ∈ names, ∃ cause, s = .failed (.refused (.breakdown cause))
        ∧ Store.fetch store.searchPath files name = .error (.breakdown cause) := by
  induction names generalizing store with
  | nil => exact ⟨[], none, store, rfl, .nil _ _, nofun⟩
  | cons name rest ih =>
    obtain ⟨after, notes, hreceives, _, hcons⟩ := readFiles_cons store files name rest
    rw [hcons]
    split
    · next cause hfetch =>
      refine ⟨notes, _, after, rfl, .of_receives hreceives rest, fun s h => ?_⟩
      cases h
      exact ⟨name, List.mem_cons_self, cause, rfl, hfetch⟩
    · obtain ⟨lines, stop, final, hrest, hdraws, hstop⟩ := ih after
      rw [hreceives.searchPath] at hstop
      dsimp only
      rw [hrest]
      refine ⟨_, stop, final, rfl, .cons hreceives hdraws, fun s hs => ?_⟩
      obtain ⟨other, hother, hcause⟩ := hstop s hs
      exact ⟨other, List.mem_cons_of_mem _ hother, hcause⟩

theorem readFiles_spec {store : Store} {files : Files} {names : List String}
    (hreads : ∀ name ∈ names, ∀ cause, Store.fetch store.searchPath files name ≠ .error (.breakdown cause)) :
    ∃ lines after, readFiles ⟨store, none⟩ files names = (lines, none, ⟨after, none⟩)
      ∧ store.Receives (files.documents store.searchPath names) after
      ∧ lines.filterMap Line.problem? = files.problems store.searchPath names := by
  induction names generalizing store with
  | nil => exact ⟨[], store, rfl, .nil rfl rfl rfl rfl, rfl⟩
  | cons name rest ih =>
    rw [List.forall_mem_cons] at hreads
    obtain ⟨hname, hrest⟩ := hreads
    obtain ⟨after, notes, hreceives, hnotes, hcons⟩ := readFiles_cons store files name rest
    rw [← hreceives.searchPath] at hrest
    obtain ⟨lines, final, hlines, hfinal, hproblems⟩ := ih hrest
    rw [hreceives.searchPath] at hfinal hproblems
    rw [hcons]
    split
    · next cause hfetch => exact absurd hfetch (hname cause)
    · dsimp only
      rw [hlines]
      refine ⟨_, final, rfl, hreceives.trans hfinal, ?_⟩
      rw [List.filterMap_append, List.filterMap_append, hnotes, hproblems, List.nil_append]
      unfold Files.problems
      rw [List.filterMap_cons]
      cases Store.problem? (Store.fetch store.searchPath files name) with
      | none => rfl
      | some d => rfl

end Run

end Yang

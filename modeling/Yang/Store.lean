import Yang.Files
import Yang.Journal
import Yang.Measure
import Yang.Schema.Stream

/-!
This module contains the store of loaded documents and the loading of further ones from files. The first record of
a name is the one that counts. A file is loaded at most once for the sake of a name, so every such loading leaves
fewer files to be loaded.
-/

namespace Yang

structure Store where
  searchPath : List Path
  modules : List Module
  submodules : List Submodule
  searched : List Site
  journal : List Note
  deriving Repr, Inhabited

def schemaSuffix : String := ".yaml"

namespace Store

def empty (searchPath : List Path) : Store :=
  ⟨searchPath, [], [], [], []⟩

def module? (store : Store) (name : String) : Option Module :=
  store.modules.find? (fun m => m.name == name)

def submodule? (store : Store) (name : String) : Option Submodule :=
  store.submodules.find? (fun s => s.name == name)

/--
The first modules of all names, in the order of the names.
-/
def topLevel (store : Store) : List Module :=
  (Text.sorted (store.modules.map Module.name).eraseDups).filterMap store.module?

def note (store : Store) (n : Note) : Store :=
  { store with journal := store.journal ++ [n] }

def add (store : Store) (document : Document) : Store :=
  match document with
  | .main m =>
    let noted :=
      match store.module? m.name with
      | some first => store.note (.shadowed m.name m.body.source first.body.source)
      | none => store
    { noted with modules := noted.modules ++ [m] }
  | .part s => { store with submodules := store.submodules ++ [s] }

def addAll (store : Store) (documents : List Document) : Store :=
  documents.foldl add store

def places (searchPath : List Path) (candidate : String) : List Path :=
  let path := Path.ofText candidate
  if path.isAbsolute then [path] else path :: searchPath.map (fun directory => directory.join path)

def candidates (searchPath : List Path) (name : String) : List Path :=
  let spellings := if name.endsWith schemaSuffix then [name] else [name, name ++ schemaSuffix]
  spellings.flatMap (places searchPath)

/--
The first file among paths. The search ends at a path that is too long to be looked at.
-/
def firstFile (files : Files) : List Path → Except FileFault (Option Path)
  | [] => .ok none
  | path :: rest =>
    if files.isTooLong path then .error ⟨.tooLong, path⟩
    else if files.isFile path then .ok (some path)
    else firstFile files rest

def locate (searchPath : List Path) (files : Files) (name : String) : Except FileFault (Option Path) :=
  firstFile files (candidates searchPath name)

abbrev Loading (α : Type) : Type := Except Refusal α × Store

def parse (store : Store) (text source : String) : Loading (List Document) :=
  match Document.parse text source with
  | .ok documents => (.ok documents, store.addAll documents)
  | .error refusal => (.error refusal, store)

def readPath (store : Store) (files : Files) (path : Path) : Loading (List Document) :=
  match (files.file? path).bind files.content? with
  | none => (.error (.problem ⟨path.text, .noFile⟩), store)
  | some bytes =>
    match Files.decodeText bytes with
    | .error fault => (.error (.problem ⟨path.text, .notUnicode fault⟩), store)
    | .ok text => (store.note (.read path.text)).parse text path.text

def read (store : Store) (files : Files) (name : String) : Loading (List Document) :=
  match locate store.searchPath files name with
  | .error fault => (.error (.breakdown (.path fault)), store)
  | .ok none => (.error (.problem ⟨name, .noFile⟩), store)
  | .ok (some path) => store.readPath files path

def fresh? (store : Store) (files : Files) (path : Path) : Option Site :=
  (files.file? path).filter (fun site => !store.searched.contains site)

/--
Load the file on a path, unless it was searched before.
-/
def loadPath (store : Store) (files : Files) (name : String) (path : Path) : Loading Unit :=
  match store.fresh? files path with
  | none => (.ok (), store)
  | some site =>
    -- the file counts as searched even when it turns out to be bad
    let marked := { store with searched := site :: store.searched }
    let (outcome, store) := (marked.note (.loading name path.text)).readPath files path
    (outcome.map (fun _ => ()), store)

def load (store : Store) (files : Files) (name : String) : Loading Unit :=
  match locate store.searchPath files (name ++ schemaSuffix) with
  | .error fault => (.error (.breakdown (.path fault)), store)
  | .ok none => (.ok (), store)
  | .ok (some path) => store.loadPath files name path

def find {α : Type} (get : Store → String → Option α) (store : Store) (files : Files) (name : String) :
    Loading (Option α) :=
  match get store name with
  | some found => (.ok (some found), store)
  | none =>
    let (outcome, store) := store.load files name
    (outcome.map (fun _ => get store name), store)

def findModule : Store → Files → String → Loading (Option Module) :=
  find module?

def findSubmodule : Store → Files → String → Loading (Option Submodule) :=
  find submodule?

def unsearched (store : Store) (files : Files) : Nat :=
  (files.contents.filter (fun f => !store.searched.contains f.1)).length

/--
A later store of the same run: either a file was loaded for the sake of a name, or no document was added.
-/
def Follows (files : Files) (before after : Store) : Prop :=
  after.unsearched files < before.unsearched files
    ∨ (after.searched = before.searched ∧ after.modules = before.modules
      ∧ after.submodules = before.submodules)

theorem Follows.refl (files : Files) (store : Store) : Follows files store store :=
  Or.inr ⟨rfl, rfl, rfl⟩

theorem unsearched_congr {files : Files} {before after : Store} (h : after.searched = before.searched) :
    after.unsearched files = before.unsearched files := by
  simp [unsearched, h]

theorem Follows.trans {files : Files} {a b c : Store} (hab : Follows files a b) (hbc : Follows files b c) :
    Follows files a c := by
  rcases hab with hab | ⟨h₁, h₂, h₃⟩
  · rcases hbc with hbc | ⟨k₁, _, _⟩
    · exact Or.inl (Nat.lt_trans hbc hab)
    · exact Or.inl (unsearched_congr k₁ ▸ hab)
  · rcases hbc with hbc | ⟨k₁, k₂, k₃⟩
    · exact Or.inl (unsearched_congr h₁ ▸ hbc)
    · exact Or.inr ⟨k₁.trans h₁, k₂.trans h₂, k₃.trans h₃⟩

theorem Follows.unsearched_le {files : Files} {before after : Store} (h : Follows files before after) :
    after.unsearched files ≤ before.unsearched files := by
  rcases h with h | ⟨h, _, _⟩
  · exact Nat.le_of_lt h
  · exact Nat.le_of_eq (unsearched_congr h)

theorem searched_add (store : Store) (document : Document) :
    (store.add document).searched = store.searched := by
  unfold add
  split
  · dsimp only
    split <;> rfl
  · rfl

theorem searched_addAll (store : Store) (documents : List Document) :
    (store.addAll documents).searched = store.searched := by
  induction documents generalizing store with
  | nil => rfl
  | cons document rest ih => exact (ih _).trans (searched_add store document)

theorem searched_parse (store : Store) (text source : String) :
    (store.parse text source).2.searched = store.searched := by
  unfold parse
  split
  · exact searched_addAll _ _
  · rfl

theorem searched_readPath (store : Store) (files : Files) (path : Path) :
    (store.readPath files path).2.searched = store.searched := by
  unfold readPath
  split
  · rfl
  · split
    · rfl
    · exact searched_parse _ _ _

theorem fresh?_spec {store : Store} {files : Files} {path : Path} {site : Site}
    (h : store.fresh? files path = some site) :
    (files.content? site).isSome = true ∧ store.searched.contains site = false := by
  obtain ⟨hs, hc⟩ := Option.filter_eq_some_iff.1 h
  exact ⟨Files.isSome_content?_of_file? hs, by simpa using hc⟩

theorem follows_loadPath (store : Store) (files : Files) (name : String) (path : Path) :
    Follows files store (store.loadPath files name path).2 := by
  unfold loadPath
  split
  · exact Follows.refl _ _
  · next site h =>
    obtain ⟨hsome, hnew⟩ := fresh?_spec h
    obtain ⟨bytes, hmem⟩ := Measure.mem_of_lookup_isSome hsome
    refine Or.inl ?_
    have hs : ((({ store with searched := site :: store.searched } : Store).note
        (.loading name path.text)).readPath files path).2.searched = site :: store.searched :=
      searched_readPath _ _ _
    simp only [unsearched, hs]
    refine Measure.length_filter_lt ?_ hmem (by simpa using hnew) (by simp)
    intro f _ hf
    simp only [List.contains_cons, Bool.not_or, Bool.and_eq_true] at hf
    exact hf.2

theorem follows_load (store : Store) (files : Files) (name : String) :
    Follows files store (store.load files name).2 := by
  unfold load
  split
  · exact Follows.refl _ _
  · exact Follows.refl _ _
  · exact follows_loadPath _ _ _ _

theorem follows_find {α : Type} (get : Store → String → Option α) (store : Store) (files : Files)
    (name : String) : Follows files store (find get store files name).2 := by
  unfold find
  split
  · exact Follows.refl _ _
  · exact follows_load _ _ _

end Store

end Yang

import Yang.Proofs.Store.Extends

/-!
This module contains stores with a longer search path. The further directories come last, so a file that is found
without them is the one that is found with them, and it is loaded in the same way.
-/

namespace Yang

namespace Store

def widen (more : List Path) (store : Store) : Store :=
  { store with searchPath := store.searchPath ++ more }

variable {store : Store} {files : Files} {name : String} {path : Path} {paths searchPath more : List Path}

theorem firstFile_append (h : firstFile files paths = .ok (some path)) :
    firstFile files (paths ++ more) = .ok (some path) := by
  induction paths with
  | nil => cases h
  | cons first rest ih =>
    rw [List.cons_append]
    unfold firstFile at h ⊢
    split at h
    · cases h
    · next hshort =>
      rw [if_neg hshort]
      split at h
      · next hfile =>
        rw [if_pos hfile]
        exact h
      · next hno =>
        rw [if_neg hno]
        exact ih h

theorem places_append (searchPath more : List Path) (candidate : String) :
    ∃ last, places (searchPath ++ more) candidate = places searchPath candidate ++ last := by
  unfold places
  dsimp only
  split
  · exact ⟨[], rfl⟩
  · exact ⟨_, by rw [List.map_append, List.cons_append]⟩

theorem locate_append (hname : name.endsWith schemaSuffix = true)
    (h : locate searchPath files name = .ok (some path)) :
    locate (searchPath ++ more) files name = .ok (some path) := by
  have hcandidates : ∀ searchPath, candidates searchPath name = places searchPath name := by
    intro searchPath
    unfold candidates
    rw [if_pos hname, List.flatMap_singleton]
  obtain ⟨last, hlast⟩ := places_append searchPath more name
  unfold locate at h ⊢
  rw [hcandidates] at h ⊢
  rw [hlast]
  exact firstFile_append h

theorem widen_add (more : List Path) (store : Store) (document : Document) :
    (store.widen more).add document = (store.add document).widen more := by
  cases document with
  | part s => rfl
  | main m =>
    unfold add
    dsimp only
    rw [show (store.widen more).module? m.name = store.module? m.name from rfl]
    cases store.module? m.name with
    | none => rfl
    | some first => rfl

theorem widen_addAll (more : List Path) (store : Store) (documents : List Document) :
    (store.widen more).addAll documents = (store.addAll documents).widen more := by
  induction documents generalizing store with
  | nil => rfl
  | cons document rest ih =>
    unfold addAll at ih ⊢
    rw [List.foldl_cons, List.foldl_cons, widen_add]
    exact ih _

theorem widen_parse (more : List Path) (store : Store) (text source : String) :
    (store.widen more).parse text source = (store.parse text source).map id (widen more) := by
  unfold parse
  cases Document.parse text source with
  | ok documents =>
    dsimp only
    rw [widen_addAll]
    rfl
  | error refusal => rfl

theorem widen_readPath (more : List Path) (store : Store) (files : Files) (path : Path) :
    (store.widen more).readPath files path = (store.readPath files path).map id (widen more) := by
  unfold readPath
  split
  · rfl
  · split
    · rfl
    · exact widen_parse more (store.note (.read path.text)) _ _

theorem widen_loadPath (more : List Path) (store : Store) (files : Files) (name : String) (path : Path) :
    (store.widen more).loadPath files name path = (store.loadPath files name path).map id (widen more) := by
  unfold loadPath
  rw [show (store.widen more).fresh? files path = store.fresh? files path from rfl]
  split
  · rfl
  · next site _ =>
    dsimp only
    rw [show (({ store.widen more with searched := site :: (store.widen more).searched } : Store).note
        (.loading name path.text)) = (({ store with searched := site :: store.searched } : Store).note
        (.loading name path.text)).widen more from rfl, widen_readPath]
    rfl

theorem widen_read {documents : List Document} (more : List Path) (hname : name.endsWith schemaSuffix = true)
    (h : (store.read files name).1 = .ok documents) :
    (store.widen more).read files name = (store.read files name).map id (widen more) := by
  unfold read at h ⊢
  split at h
  · cases h
  · cases h
  · next path hpath =>
    rw [show (store.widen more).searchPath = store.searchPath ++ more from rfl, locate_append hname hpath]
    exact widen_readPath more store files path

theorem endsWith_schemaSuffix (name : String) : (name ++ schemaSuffix).endsWith schemaSuffix = true := by
  rw [String.endsWith, String.Slice.endsWith_string_iff, String.copy_toSlice, String.toList_append]
  exact List.suffix_append _ _

theorem widen_find {α : Type} {get : Store → String → Option α} (more : List Path)
    (hget : ∀ store name, get (store.widen more) name = get store name) {found : α}
    (h : (find get store files name).1 = .ok (some found)) :
    find get (store.widen more) files name = (find get store files name).map id (widen more) := by
  unfold find at h ⊢
  rw [hget]
  cases hnow : get store name with
  | some first => rfl
  | none =>
    rw [hnow] at h
    dsimp only at h ⊢
    unfold load at h ⊢
    split at h
    · cases h
    · dsimp only [Except.map] at h
      rw [hnow] at h
      cases h
    · next path hpath =>
      rw [show (store.widen more).searchPath = store.searchPath ++ more from rfl,
        locate_append (endsWith_schemaSuffix name) hpath]
      dsimp only
      rw [widen_loadPath]
      dsimp only [Prod.map]
      rw [hget]
      rfl

end Store

end Yang

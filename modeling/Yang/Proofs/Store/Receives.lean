import Yang.Proofs.Store.Extends

/-!
This module contains what loading adds to a store: the documents that were read come behind those that were there, and
what is read does not depend on what was there.
-/

namespace Yang

namespace Document

def main? : Document → Option Module
  | main m => some m
  | part _ => none

def part? : Document → Option Submodule
  | main _ => none
  | part s => some s

end Document

namespace Store

structure Receives (before : Store) (documents : List Document) (after : Store) : Prop where
  searchPath : after.searchPath = before.searchPath
  modules : after.modules = before.modules ++ documents.filterMap Document.main?
  submodules : after.submodules = before.submodules ++ documents.filterMap Document.part?
  searched : after.searched = before.searched

theorem Receives.nil {before after : Store} (hpath : after.searchPath = before.searchPath)
    (hmodules : after.modules = before.modules) (hsubmodules : after.submodules = before.submodules)
    (hsearched : after.searched = before.searched) : Receives before [] after :=
  ⟨hpath, hmodules.trans (List.append_nil _).symm, hsubmodules.trans (List.append_nil _).symm, hsearched⟩

theorem Receives.trans {a b c : Store} {documents more : List Document} (hab : Receives a documents b)
    (hbc : Receives b more c) : Receives a (documents ++ more) c where
  searchPath := hbc.searchPath.trans hab.searchPath
  modules := by rw [hbc.modules, hab.modules, List.filterMap_append, List.append_assoc]
  submodules := by rw [hbc.submodules, hab.submodules, List.filterMap_append, List.append_assoc]
  searched := hbc.searched.trans hab.searched

theorem receives_add (store : Store) (document : Document) : Receives store [document] (store.add document) := by
  unfold add
  cases document with
  | main m =>
    dsimp only
    split
    · exact ⟨rfl, rfl, (List.append_nil _).symm, rfl⟩
    · exact ⟨rfl, rfl, (List.append_nil _).symm, rfl⟩
  | part s => exact ⟨rfl, (List.append_nil _).symm, rfl, rfl⟩

theorem receives_addAll (store : Store) (documents : List Document) :
    Receives store documents (store.addAll documents) := by
  induction documents generalizing store with
  | nil => exact .nil rfl rfl rfl rfl
  | cons document rest ih => exact (receives_add store document).trans (ih (store.add document))

def gained : Except Refusal (List Document) → List Document
  | .ok documents => documents
  | .error _ => []

def problem? {α : Type} : Except Refusal α → Option Diagnostic
  | .error (.problem d) => some d
  | _ => none

theorem parse_spec (store : Store) (text source : String) :
    (store.parse text source).1 = Document.parse text source
      ∧ Receives store (gained (Document.parse text source)) (store.parse text source).2 := by
  unfold parse
  split
  · next documents h =>
    rw [h]
    exact ⟨rfl, receives_addAll _ _⟩
  · next refusal h =>
    rw [h]
    exact ⟨rfl, .nil rfl rfl rfl rfl⟩

theorem receives_note (store : Store) (n : Note) : Receives store [] (store.note n) :=
  .nil rfl rfl rfl rfl

theorem readPath_spec (store other : Store) (files : Files) (path : Path) :
    (store.readPath files path).1 = (other.readPath files path).1
      ∧ Receives store (gained (store.readPath files path).1) (store.readPath files path).2 := by
  unfold readPath
  split
  · exact ⟨rfl, .nil rfl rfl rfl rfl⟩
  · split
    · exact ⟨rfl, .nil rfl rfl rfl rfl⟩
    · next text _ =>
      obtain ⟨houtcome, hreceives⟩ := parse_spec (store.note (.read path.text)) text path.text
      rw [houtcome, (parse_spec (other.note (.read path.text)) text path.text).1]
      exact ⟨rfl, (receives_note store _).trans hreceives⟩

theorem Receives.loaded {before after : Store} {documents : List Document} (h : Receives before documents after)
    {d : Document} (hd : after.Loaded d) : before.Loaded d ∨ d ∈ documents := by
  cases d with
  | main m =>
    change m ∈ after.modules at hd
    rw [h.modules, List.mem_append, List.mem_filterMap] at hd
    rcases hd with hd | ⟨d, hd, hm⟩
    · exact .inl hd
    · cases d with
      | main _ => cases hm; exact .inr hd
      | part _ => cases hm
  | part s =>
    change s ∈ after.submodules at hd
    rw [h.submodules, List.mem_append, List.mem_filterMap] at hd
    rcases hd with hd | ⟨d, hd, hs⟩
    · exact .inl hd
    · cases d with
      | main _ => cases hs
      | part _ => cases hs; exact .inr hd

end Store

end Yang

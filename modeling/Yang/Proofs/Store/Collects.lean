import Yang.Proofs.Gather.Step
import Yang.Proofs.Store.Receives

/-!
This module contains where the records of a store come from: whatever is loaded, the documents of whole sources come
behind those that were there. Nothing of a source that is refused comes in.
-/

namespace Yang

def Document.Whole (documents : List Document) : Prop :=
  ∃ text source, Document.parse text source = .ok documents

namespace Store

structure Collects (before : Store) (batches : List (List Document)) (after : Store) : Prop where
  modules : after.modules = before.modules ++ batches.flatten.filterMap Document.main?
  submodules : after.submodules = before.submodules ++ batches.flatten.filterMap Document.part?
  whole : ∀ batch ∈ batches, Document.Whole batch

variable {before after : Store} {batches : List (List Document)}

theorem Collects.of_eq (hmodules : after.modules = before.modules) (hsubmodules : after.submodules = before.submodules) :
    Collects before [] after :=
  ⟨hmodules.trans (List.append_nil _).symm, hsubmodules.trans (List.append_nil _).symm, List.forall_mem_nil _⟩

theorem Collects.trans {a b c : Store} {more : List (List Document)} (hab : Collects a batches b)
    (hbc : Collects b more c) : Collects a (batches ++ more) c where
  modules := by rw [hbc.modules, hab.modules, List.flatten_append, List.filterMap_append, List.append_assoc]
  submodules := by rw [hbc.submodules, hab.submodules, List.flatten_append, List.filterMap_append, List.append_assoc]
  whole := List.forall_mem_append.2 ⟨hab.whole, hbc.whole⟩

theorem Receives.collects {documents : List Document} (h : Receives before documents after)
    (hwhole : Document.Whole documents) : Collects before [documents] after where
  modules := by rw [h.modules, List.flatten_singleton]
  submodules := by rw [h.submodules, List.flatten_singleton]
  whole := List.forall_mem_singleton.2 hwhole

theorem Collects.loaded (h : Collects before batches after) {d : Document} (hd : after.Loaded d) :
    before.Loaded d ∨ ∃ batch ∈ batches, d ∈ batch := by
  cases d with
  | main m =>
    change m ∈ after.modules at hd
    rw [h.modules, List.mem_append, List.mem_filterMap] at hd
    rcases hd with hd | ⟨d, hd, hm⟩
    · exact .inl hd
    · cases d with
      | main _ => cases hm; exact .inr (List.mem_flatten.1 hd)
      | part _ => cases hm
  | part s =>
    change s ∈ after.submodules at hd
    rw [h.submodules, List.mem_append, List.mem_filterMap] at hd
    rcases hd with hd | ⟨d, hd, hs⟩
    · exact .inl hd
    · cases d with
      | main _ => cases hs
      | part _ => cases hs; exact .inr (List.mem_flatten.1 hd)

def AllOrNothing (before : Store) : Loading (List Document) → Prop
  | (.ok documents, after) => Collects before [documents] after
  | (.error _, after) => after.modules = before.modules ∧ after.submodules = before.submodules

theorem AllOrNothing.of_eq {start : Store} (h : AllOrNothing start r) (hmodules : start.modules = before.modules)
    (hsubmodules : start.submodules = before.submodules) : AllOrNothing before r := by
  obtain ⟨outcome, after⟩ := r
  cases outcome with
  | ok documents => exact (Collects.of_eq hmodules hsubmodules).trans h
  | error refusal => exact ⟨h.1.trans hmodules, h.2.trans hsubmodules⟩

variable (store : Store) (files : Files)

theorem parse_allOrNothing (text source : String) : AllOrNothing store (store.parse text source) := by
  unfold parse
  split
  · next documents h => exact (receives_addAll store documents).collects ⟨text, source, h⟩
  · exact ⟨rfl, rfl⟩

theorem readPath_allOrNothing (path : Path) : AllOrNothing store (store.readPath files path) := by
  unfold readPath
  split
  · exact ⟨rfl, rfl⟩
  · split
    · exact ⟨rfl, rfl⟩
    · exact (parse_allOrNothing _ _ _).of_eq rfl rfl

theorem read_allOrNothing (name : String) : AllOrNothing store (store.read files name) := by
  unfold read
  split
  · exact ⟨rfl, rfl⟩
  · exact ⟨rfl, rfl⟩
  · exact readPath_allOrNothing _ _ _

theorem load_collects (name : String) : ∃ batch : Option (List Document),
    Collects store batch.toList (store.load files name).2
      ∧ ∀ refusal, (store.load files name).1 = .error refusal → batch = none := by
  have hnothing : Collects store [] store := .of_eq rfl rfl
  unfold load
  split
  · exact ⟨none, hnothing, fun _ _ => rfl⟩
  · exact ⟨none, hnothing, fun _ _ => rfl⟩
  · next path _ =>
    unfold loadPath
    split
    · exact ⟨none, hnothing, fun _ _ => rfl⟩
    · next site _ =>
      dsimp only
      have hread := readPath_allOrNothing
        (({ store with searched := site :: store.searched } : Store).note (.loading name path.text)) files path
      replace hread : AllOrNothing store _ := hread.of_eq rfl rfl
      generalize readPath _ files path = read at hread ⊢
      obtain ⟨outcome, after⟩ := read
      cases outcome with
      | ok documents => exact ⟨some documents, hread, nofun⟩
      | error refusal => exact ⟨none, .of_eq hread.1 hread.2, fun _ _ => rfl⟩

theorem find_collects {α : Type} (get : Store → String → Option α) (name : String) :
    ∃ batch : Option (List Document), Collects store batch.toList (find get store files name).2
      ∧ ∀ refusal, (find get store files name).1 = .error refusal → batch = none := by
  unfold find
  split
  · exact ⟨none, .of_eq rfl rfl, fun _ _ => rfl⟩
  · obtain ⟨batch, hcollects, hfailed⟩ := load_collects store files name
    refine ⟨batch, hcollects, fun refusal h => hfailed refusal ?_⟩
    dsimp only at h
    cases hload : (store.load files name).1 with
    | ok _ => rw [hload] at h; cases h
    | error other => rw [hload] at h; cases h; rfl

end Store

namespace Gathering

variable {files : Files} {g g' : Gathering}

theorem Step.collects (h : Step files g g') : ∃ batches, g.store.Collects batches g'.store := by
  cases h with
  | report d => exact ⟨[], .of_eq rfl rfl⟩
  | note name n =>
    unfold Gathering.note
    split
    · exact ⟨[], .of_eq rfl rfl⟩
    · exact ⟨[], .of_eq rfl rfl⟩
  | @look _ get _ name _ =>
    rcases look_store_or get files name g with hstore | hstore
    · rw [hstore]
      exact ⟨[], .of_eq rfl rfl⟩
    · rw [hstore]
      obtain ⟨batch, hcollects, _⟩ := Store.find_collects g.store files get name
      exact ⟨_, hcollects⟩

theorem Steps.collects (h : Steps files g g') : ∃ batches, g.store.Collects batches g'.store := by
  apply Steps.lift (p := fun g' => ∃ batches, g.store.Collects batches g'.store) _ h
  · exact ⟨[], .of_eq rfl rfl⟩
  · rintro g₁ g₂ hstep ⟨batches, hbatches⟩
    obtain ⟨more, hmore⟩ := hstep.collects
    exact ⟨batches ++ more, hbatches.trans hmore⟩

end Gathering

end Yang

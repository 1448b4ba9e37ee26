import Yang.Proofs.ModuleSet.Frozen
import Yang.Proofs.Store.Collects

/-!
This module contains what operations in any order make of the records of a set. Whole sources come behind the records
that were there, also while the set is processed, and an operation that fails adds nothing. So a record that is the
first of its name stays the first of its name.
-/

namespace Yang

def Failure.of? {α : Type} : Except Failure α → Option Failure
  | .ok _ => none
  | .error failure => some failure

/--
Whether an operation is another one than the processing of a set, to which bad files are problems and no failures.
-/
def Operation.Plain (operation : Operation) : Prop :=
  operation ≠ .process

namespace ModuleSet

def failure? (set : ModuleSet) (files : Files) : Operation → Option Failure
  | .read name => Failure.of? (set.read files name).1
  | .parse text source => Failure.of? (set.parse text source).1
  | .findModule name => Failure.of? (set.findModule files name).1
  | .findSubmodule name => Failure.of? (set.findSubmodule files name).1
  | .locate name => Failure.of? (set.locate files name)
  | .process => Failure.of? (set.process files).1
  | .toEntry name => Failure.of? (set.toEntry name)
  | .module _ => none
  | .submodule _ => none
  | .topLevel => none

/--
All that a set can gain between one state and a later one: whole sources behind its records.
-/
structure Appends (before after : ModuleSet) : Prop where
  sources : ∃ batches, before.store.Collects batches after.store
  modules : before.store.modules <+: after.store.modules
  submodules : before.store.submodules <+: after.store.submodules
  module : ∀ name m, before.store.module? name = some m → after.store.module? name = some m
  submodule : ∀ name s, before.store.submodule? name = some s → after.store.submodule? name = some s
  topLevel : ∀ m ∈ before.store.topLevel, m ∈ after.store.topLevel
    ∧ ∀ other ∈ after.store.topLevel, other.name = m.name → other = m

/--
All that a single operation adds to a set when it is not processed: the documents of one source, or nothing. It adds
nothing when it fails, and the documents that it returns otherwise.
-/
structure Atomic (set : ModuleSet) (files : Files) (operation : Operation) : Prop where
  single : ∃ batch : Option (List Document), set.store.Collects batch.toList (set.after files operation).store
  failed : set.failure? files operation ≠ none → (set.after files operation).store.modules = set.store.modules
    ∧ (set.after files operation).store.submodules = set.store.submodules
  read : ∀ name documents, operation = .read name → (set.read files name).1 = .ok documents →
    set.store.Collects [documents] (set.after files operation).store
  parse : ∀ text source documents, operation = .parse text source → (set.parse text source).1 = .ok documents →
    set.store.Collects [documents] (set.after files operation).store

variable (set : ModuleSet) (files : Files)

section Loading

variable {α : Type} {set : ModuleSet} {load : Store → Store.Loading α}

theorem error_of_failed (h : Failure.of? (set.loading load).1 ≠ none) :
    ∃ refusal, (load set.store).1 = .error refusal := by
  unfold loading at h
  dsimp only at h
  cases hload : (load set.store).1 with
  | ok a =>
    rw [hload] at h
    exact absurd rfl h
  | error refusal => exact ⟨refusal, rfl⟩

theorem ok_of_loading {a : α} (h : (set.loading load).1 = .ok a) : (load set.store).1 = .ok a := by
  unfold loading at h
  dsimp only at h
  cases hload : (load set.store).1 with
  | ok b =>
    rw [hload] at h
    cases h
    rfl
  | error refusal =>
    rw [hload] at h
    cases h

end Loading

theorem whileOpen_collects (load : Store → Store.Loading (List Document))
    (h : Store.AllOrNothing set.store (load set.store)) :
    (∃ batch : Option (List Document), set.store.Collects batch.toList (set.whileOpen load).2.store)
      ∧ (Failure.of? (set.whileOpen load).1 ≠ none → (set.whileOpen load).2.store.modules = set.store.modules
        ∧ (set.whileOpen load).2.store.submodules = set.store.submodules)
      ∧ ∀ documents, (set.whileOpen load).1 = .ok documents →
        set.store.Collects [documents] (set.whileOpen load).2.store := by
  unfold whileOpen
  split
  · exact ⟨⟨none, .of_eq rfl rfl⟩, fun _ => ⟨rfl, rfl⟩, nofun⟩
  · rw [show (set.loading load).2.store = (load set.store).2 from rfl]
    cases hload : load set.store with
    | mk outcome store =>
      rw [hload] at h
      cases outcome with
      | ok documents =>
        refine ⟨⟨some documents, h⟩, fun hfailed => ?_, fun other hother => ?_⟩
        · obtain ⟨refusal, hrefusal⟩ := error_of_failed hfailed
          rw [hload] at hrefusal
          cases hrefusal
        · have hsame := ok_of_loading hother
          rw [hload] at hsame
          cases hsame
          exact h
      | error refusal =>
        refine ⟨⟨none, .of_eq h.1 h.2⟩, fun _ => h, fun documents hdocuments => ?_⟩
        have hsame := ok_of_loading hdocuments
        rw [hload] at hsame
        cases hsame

theorem find_collects {α : Type} (get : Store → String → Option α) (name : String) :
    (∃ batch : Option (List Document), set.store.Collects batch.toList (Store.find get set.store files name).2)
      ∧ (Failure.of? (set.loading fun store => Store.find get store files name).1 ≠ none →
        (Store.find get set.store files name).2.modules = set.store.modules
          ∧ (Store.find get set.store files name).2.submodules = set.store.submodules) := by
  obtain ⟨batch, hcollects, hfailed⟩ := Store.find_collects set.store files get name
  refine ⟨⟨batch, hcollects⟩, fun h => ?_⟩
  obtain ⟨refusal, hrefusal⟩ := error_of_failed h
  rw [hfailed refusal hrefusal] at hcollects
  exact ⟨hcollects.modules.trans (List.append_nil _), hcollects.submodules.trans (List.append_nil _)⟩

theorem atomic_after {operation : Operation} (hplain : operation.Plain) : Atomic set files operation := by
  cases operation with
  | read name =>
    obtain ⟨hsingle, hfailed, hok⟩ :=
      whileOpen_collects set (fun store => store.read files name) (Store.read_allOrNothing set.store files name)
    exact ⟨hsingle, hfailed, fun _ documents heq => by cases heq; exact hok documents, nofun⟩
  | parse text source =>
    obtain ⟨hsingle, hfailed, hok⟩ :=
      whileOpen_collects set (fun store => store.parse text source) (Store.parse_allOrNothing set.store text source)
    exact ⟨hsingle, hfailed, nofun, fun _ _ documents heq => by cases heq; exact hok documents⟩
  | findModule name =>
    obtain ⟨hsingle, hfailed⟩ := find_collects set files Store.module? name
    exact ⟨hsingle, hfailed, nofun, nofun⟩
  | findSubmodule name =>
    obtain ⟨hsingle, hfailed⟩ := find_collects set files Store.submodule? name
    exact ⟨hsingle, hfailed, nofun, nofun⟩
  | process => exact absurd rfl hplain
  | module | submodule | locate | topLevel | toEntry =>
    exact ⟨⟨none, .of_eq rfl rfl⟩, fun _ => ⟨rfl, rfl⟩, nofun, nofun⟩

theorem process_collects : ∃ batches, set.store.Collects batches (set.process files).2.store := by
  obtain ⟨store, outcome⟩ := set
  cases outcome with
  | some outcome =>
    rw [process_of_outcome rfl]
    exact ⟨[], .of_eq rfl rfl⟩
  | none =>
    obtain ⟨scopes, _, hruns⟩ := gather_spec store files
    obtain ⟨batches, hcollects⟩ := hruns.steps.collects
    rw [process_open]
    refine ⟨batches, ?_⟩
    split
    · exact hcollects
    · exact ⟨hcollects.modules, hcollects.submodules, hcollects.whole⟩

theorem after_collects (operation : Operation) :
    ∃ batches, set.store.Collects batches (set.after files operation).store := by
  by_cases hplain : operation.Plain
  · obtain ⟨batch, hbatch⟩ := (atomic_after set files hplain).single
    exact ⟨_, hbatch⟩
  · rw [Decidable.not_not.1 hplain]
    exact process_collects set files

theorem afterAll_collects (history : List (Operation × Files)) :
    ∃ batches, set.store.Collects batches (set.afterAll history).store := by
  unfold afterAll
  induction history generalizing set with
  | nil => exact ⟨[], .of_eq rfl rfl⟩
  | cons p rest ih =>
    obtain ⟨batches, hbatches⟩ := after_collects set p.2 p.1
    obtain ⟨more, hmore⟩ := ih (set.after p.2 p.1)
    exact ⟨batches ++ more, hbatches.trans hmore⟩

end ModuleSet

namespace Store

variable {before after : Store} {batches : List (List Document)}

theorem Collects.module? (h : Collects before batches after) {name : String} {m : Module}
    (hm : before.module? name = some m) : after.module? name = some m := by
  unfold Store.module? at hm ⊢
  rw [h.modules, List.find?_append, hm]
  rfl

theorem Collects.submodule? (h : Collects before batches after) {name : String} {s : Submodule}
    (hs : before.submodule? name = some s) : after.submodule? name = some s := by
  unfold Store.submodule? at hs ⊢
  rw [h.submodules, List.find?_append, hs]
  rfl

theorem mem_topLevel_iff {store : Store} {m : Module} : m ∈ store.topLevel ↔ store.module? m.name = some m := by
  constructor
  · exact ModuleSet.topLevel_first
  · intro h
    have hname := mem_names_topLevel_iff.2 (Option.isSome_of_mem h)
    obtain ⟨other, hother, hname⟩ := List.mem_map.1 hname
    have hfirst := ModuleSet.topLevel_first hother
    rw [hname, h] at hfirst
    cases hfirst
    exact hother

end Store

namespace ModuleSet

/--
The records of a set only ever grow at the end, by whole sources. This holds of every set and of every sequence of
operations, whatever files there are at each of them, so it holds between any two states that a set comes through.
After any such sequence an operation that fails leaves the records as they are.
-/
theorem appends_afterAll (set : ModuleSet) (history : List (Operation × Files)) :
    Appends set (set.afterAll history)
      ∧ ∀ files operation, operation.Plain → Atomic (set.afterAll history) files operation := by
  refine ⟨?_, fun files operation hplain => atomic_after _ files hplain⟩
  obtain ⟨batches, hcollects⟩ := afterAll_collects set history
  constructor
  · exact ⟨batches, hcollects⟩
  · exact ⟨_, hcollects.modules.symm⟩
  · exact ⟨_, hcollects.submodules.symm⟩
  · exact fun _ _ => hcollects.module?
  · exact fun _ _ => hcollects.submodule?
  · intro m hm
    have hfirst := hcollects.module? (topLevel_first hm)
    refine ⟨Store.mem_topLevel_iff.2 hfirst, fun other hother hname => ?_⟩
    have hsame := topLevel_first hother
    rw [hname, hfirst] at hsame
    cases hsame
    rfl

end ModuleSet

end Yang

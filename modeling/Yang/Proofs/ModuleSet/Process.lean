import Mathlib
import Yang.ModuleSet
import Yang.Proofs.Gather.Closed
import Yang.Proofs.Tree.Accepted

/-!
This module contains what processing makes of a set of modules, and the proof that all trees of a set are accepted when
there are no problems.
-/

namespace Yang

theorem Gathering.Sound.perm {store : Store} {scopes scopes' : Scopes} (h : Gathering.Sound store scopes)
    (hperm : scopes'.Perm scopes) : Gathering.Sound store scopes' where
  coherent := by
    constructor
    · apply (hperm.map (fun s => s.main.name)).nodup_iff.2
      exact h.coherent.distinct
    · intro scope hs
      exact h.coherent.owner scope (hperm.mem_iff.1 hs)
  first := fun scope hs => h.first scope (hperm.mem_iff.1 hs)
  own := fun scope hs => h.own scope (hperm.mem_iff.1 hs)
  bound := fun scope hs => h.bound scope (hperm.mem_iff.1 hs)

namespace ModuleSet

theorem gather_spec (store : Store) (files : Files) :
    ∃ scopes, (gather store files).1.Perm scopes
      ∧ Gathering.Runs files [] [] ⟨store, [], none⟩ scopes (gather store files).2 := by
  refine ⟨_, List.mergeSort_perm _ _, ?_⟩
  apply Gathering.runs_all

theorem sound_gather (store : Store) (files : Files) :
    Gathering.Sound (gather store files).2.store (gather store files).1 := by
  obtain ⟨scopes, hperm, hruns⟩ := gather_spec store files
  apply Gathering.Sound.perm _ hperm
  apply hruns.sound
  apply Gathering.Sound.nil

theorem process_open (store : Store) (files : Files) :
    process ⟨store, none⟩ files
      = match (gather store files).2.breakdown with
        | some cause => (.error (.refused (.breakdown cause)), ⟨(gather store files).2.store, none⟩)
        | none =>
          let r := (gather store files).1.forest
          let problems := (gather store files).2.problems ++ r.2.problems
          let journal :=
            (gather store files).2.store.journal ++ r.2.notes ++ [.processed r.1.length problems.length]
          (.ok problems, ⟨{ (gather store files).2.store with journal := journal }, some ⟨problems, r.1⟩⟩) :=
  rfl

def Arises (outcome : Outcome) : Prop :=
  ∃ store files, (gather store files).2.breakdown = none ∧ outcome.forest = (gather store files).1.forest.1
    ∧ outcome.problems = (gather store files).2.problems ++ (gather store files).1.forest.2.problems

/--
The sets that can arise from a set that was not processed, whatever is done with it.
-/
inductive Reachable : ModuleSet → Prop
  | opened (store : Store) : Reachable ⟨store, none⟩
  | read {set : ModuleSet} (files : Files) (name : String) (h : Reachable set) : Reachable (set.read files name).2
  | parse {set : ModuleSet} (text source : String) (h : Reachable set) : Reachable (set.parse text source).2
  | findModule {set : ModuleSet} (files : Files) (name : String) (h : Reachable set) :
    Reachable (set.findModule files name).2
  | findSubmodule {set : ModuleSet} (files : Files) (name : String) (h : Reachable set) :
    Reachable (set.findSubmodule files name).2
  | process {set : ModuleSet} (files : Files) (h : Reachable set) : Reachable (set.process files).2

theorem outcome_loading {α : Type} (set : ModuleSet) (load : Store → Store.Loading α) :
    (set.loading load).2.outcome = set.outcome := rfl

theorem outcome_whileOpen {α : Type} (set : ModuleSet) (load : Store → Store.Loading α) :
    (set.whileOpen load).2.outcome = set.outcome := by
  unfold whileOpen
  split
  · rfl
  · apply outcome_loading

theorem arises_process {set : ModuleSet} (files : Files) {outcome : Outcome}
    (h : (set.process files).2.outcome = some outcome) : set.outcome = some outcome ∨ Arises outcome := by
  obtain ⟨store, before⟩ := set
  cases before with
  | some known => exact .inl h
  | none =>
    right
    rw [process_open] at h
    split at h
    · cases h
    · next hnone =>
      cases h
      exact ⟨store, files, hnone, rfl, rfl⟩

theorem Reachable.arises {set : ModuleSet} (h : set.Reachable) {outcome : Outcome}
    (houtcome : set.outcome = some outcome) : Arises outcome := by
  induction h with
  | opened store => cases houtcome
  | read files name _ ih => exact ih ((outcome_whileOpen _ _).symm.trans houtcome)
  | parse text source _ ih => exact ih ((outcome_whileOpen _ _).symm.trans houtcome)
  | findModule files name _ ih => exact ih houtcome
  | findSubmodule files name _ ih => exact ih houtcome
  | process files _ ih =>
    rcases arises_process files houtcome with hbefore | harises
    · exact ih hbefore
    · exact harises

theorem Arises.flourishes {outcome : Outcome} (h : Arises outcome) (hnil : outcome.problems = []) :
    ∃ scopes : Scopes, scopes.Flourishes outcome.forest := by
  obtain ⟨store, files, _, hforest, hproblems⟩ := h
  rw [hnil, eq_comm, List.append_eq_nil_iff] at hproblems
  rw [hforest]
  exact ⟨_, Scopes.flourishes_forest (sound_gather store files).coherent hproblems.2⟩

theorem Arises.thriving {outcome : Outcome} (h : Arises outcome) (hnil : outcome.problems = []) :
    ∀ tree ∈ outcome.forest, Scopes.Thriving tree := by
  obtain ⟨_, hflourishes⟩ := h.flourishes hnil
  exact hflourishes.thriving

theorem outcome_of_process_eq_ok {set : ModuleSet} {files : Files} {problems : List Diagnostic}
    (h : (set.process files).1 = .ok problems) :
    ∃ forest, (set.process files).2.outcome = some ⟨problems, forest⟩ := by
  obtain ⟨store, before⟩ := set
  cases before with
  | some known =>
    cases h
    exact ⟨known.forest, rfl⟩
  | none =>
    rw [process_open] at h ⊢
    split at h
    · cases h
    · next hnone =>
      cases h
      exact ⟨_, rfl⟩

/--
When processing finds no problem, every entry of every tree has its place and lacks nothing.
-/
theorem accepted_of_process {set : ModuleSet} (h : set.Reachable) {files : Files}
    (hok : (set.process files).1 = .ok []) :
    ∃ outcome, (set.process files).2.outcome = some outcome
      ∧ ∀ tree ∈ outcome.forest, tree.head.kind = .module
        ∧ ∀ e, Entry.Within e tree → Entry.Accepted e.head (e.children.map Entry.head) := by
  obtain ⟨forest, houtcome⟩ := outcome_of_process_eq_ok hok
  refine ⟨_, houtcome, fun tree htree => ?_⟩
  have harises := (Reachable.process files h).arises houtcome
  have hthriving := harises.thriving rfl tree htree
  exact ⟨hthriving.kind, hthriving.entries⟩

def plainModule (nodes : List Node) (augments : List Augment) : Module :=
  ⟨"m", "u", ⟨"p", none, none, none, none, [], [], [], [], nodes, augments, "m.yaml"⟩⟩

def plain (nodes : List Node) (augments : List Augment) : ModuleSet :=
  ⟨⟨[], [plainModule nodes augments], [], [], []⟩, none⟩

theorem gather_plain (nodes : List Node) (augments : List Augment) (files : Files) :
    gather (plain nodes augments).store files
      = ([⟨plainModule nodes augments, [⟨.main (plainModule nodes augments), "m", [("p", "m")]⟩]⟩],
        ⟨⟨[], [plainModule nodes augments], [], [], [.collected "m" 1]⟩, [], none⟩) := by
  have hall : Gathering.all files [] [] ⟨(plain nodes augments).store, [], none⟩
      = ([⟨plainModule nodes augments, [⟨.main (plainModule nodes augments), "m", [("p", "m")]⟩]⟩],
        ⟨⟨[], [plainModule nodes augments], [], [], [.collected "m" 1]⟩, [], none⟩) := by
    rw [@Gathering.all_of_next_eq_some _ _ _ [] (plainModule nodes augments)]
    · rw [Gathering.all_of_next_eq_none]
      · cbv
      · cbv
    · cbv
  unfold gather
  rw [hall]
  dsimp only
  rw [List.mergeSort_singleton]

def sampleModule : Module :=
  plainModule [.container ⟨"c", none, none, none⟩ []]
    [⟨"/p:c", none, [.leaf ⟨.free, "a", "string", none, none, true, none, none⟩]⟩]

def sample : ModuleSet :=
  ⟨⟨[], [sampleModule], [], [], []⟩, none⟩

theorem gather_sample (files : Files) :
    gather sample.store files
      = ([⟨sampleModule, [⟨.main sampleModule, "m", [("p", "m")]⟩]⟩],
        ⟨⟨[], [sampleModule], [], [], [.collected "m" 1]⟩, [], none⟩) := by
  apply gather_plain

theorem process_sample (files : Files) : (sample.process files).1 = .ok [] := by
  unfold sample
  rw [process_open]
  rw [show gather ⟨[], [sampleModule], [], [], []⟩ files = _ from gather_sample files]
  cbv

theorem accepted_of_process_sample :
    sample.Reachable ∧ (sample.process .empty).1 = .ok []
      ∧ ∃ outcome, (sample.process .empty).2.outcome = some outcome
        ∧ ∀ tree ∈ outcome.forest, tree.head.kind = .module
          ∧ ∀ e, Entry.Within e tree → Entry.Accepted e.head (e.children.map Entry.head) :=
  ⟨.opened _, process_sample _, accepted_of_process (.opened _) (process_sample _)⟩

end ModuleSet

end Yang

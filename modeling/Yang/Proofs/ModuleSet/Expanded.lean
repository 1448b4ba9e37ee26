import Yang.Proofs.ModuleSet.Diagnosed
import Yang.Proofs.ModuleSet.Inlined
import Yang.Proofs.Tree.Calls

/-!
This module contains what becomes of the references to groupings in a processed set. They are replaced by the nodes of
the groupings until none is left or a grouping comes back to itself, which is a problem.
-/

namespace Yang

namespace Scopes

/--
What becomes of references to groupings when the trees of all modules are built, with these problems: nodes are added
with finitely many references on the way, each of them met inside of different groupings; the problems with groupings
that come back to themselves are those of references that are met inside of the groupings that they stand for; so there
are none when no chain comes back, and if some chain comes back, there are problems.
-/
structure Expanded (scopes : Scopes) (problems : List Diagnostic) : Prop where
  ends : ∀ owner spot context nodes children w, ∃ calls, Calls scopes owner [] spot context nodes children w calls
      (scopes.addNodes [] spot context owner nodes children w).1
      (scopes.addNodes [] spot context owner nodes children w).2
    ∧ ∀ call ∈ calls, scopes.Met [] context nodes call ∧ call.inside.Nodup
      ∧ call.inside.length ≤ (scopes.definitions Grouping).length
  augmented : ∃ decided, (decided.map Prod.fst).Perm scopes.grafts
    ∧ DecidesAll scopes (scopes.buildAll scopes (fun _ h => h) .empty).1
      (scopes.buildAll scopes (fun _ h => h) .empty).2 decided scopes.forest.1 scopes.forest.2
  reported : ∀ d ∈ problems, d.isAbout Finding.isRecursion = true →
    ∃ (context : Context) (nodes : List Node) (call : Call), scopes.Starts context nodes
      ∧ scopes.Met [] context nodes call ∧ call.problem? = some d
  silent : ¬ scopes.Returns → ∀ d ∈ problems, d.isAbout Finding.isRecursion = false
  loud : scopes.Returns → problems ≠ []

theorem isRecursion_of_isPreliminary {d : Diagnostic} (h : d.isPreliminary = true) :
    d.isAbout Finding.isRecursion = false := by
  obtain ⟨source, cause⟩ := d
  cases cause with
  | statement word name finding => cases finding <;> first | rfl | cases h
  | _ => rfl

variable {scopes : Scopes} {gathered : List Diagnostic}

theorem mem_about_forest (hgathered : ∀ d ∈ gathered, d.isPreliminary = true) {d : Diagnostic}
    (hd : d ∈ gathered ++ scopes.forest.2.problems) (hrecursion : d.isAbout Finding.isRecursion = true) :
    d ∈ scopes.forest.2.about Finding.isRecursion := by
  rcases List.mem_append.1 hd with hd | hd
  · rw [isRecursion_of_isPreliminary (hgathered d hd)] at hrecursion
    cases hrecursion
  · exact List.mem_filter.2 ⟨hd, hrecursion⟩

theorem expanded_forest (hc : scopes.Coherent) (hgathered : ∀ d ∈ gathered, d.isPreliminary = true) :
    scopes.Expanded (gathered ++ scopes.forest.2.problems) where
  ends owner spot context nodes children w := by
    obtain ⟨calls, hcalls⟩ := (adds_addNodes scopes owner [] spot context nodes children w).exists_calls
    refine ⟨calls, hcalls, fun call hcall => ?_⟩
    have hmet := hcalls.met hc call hcall
    have hnodup := hcalls.nodup List.nodup_nil call hcall
    exact ⟨hmet, hnodup, hmet.length_le hc hnodup⟩
  augmented := by
    obtain ⟨decided, hperm, hall, _⟩ := scopes.decides_graftAll scopes.grafts
      (scopes.buildAll scopes (fun _ h => h) .empty).1 (scopes.buildAll scopes (fun _ h => h) .empty).2
    exact ⟨decided, hperm, hall⟩
  reported d hd hrecursion := warranted_forest hc d (mem_about_forest hgathered hd hrecursion)
  silent hnot d hd := by
    rw [← Bool.not_eq_true]
    intro hrecursion
    exact hnot ((warranted_forest hc).returns (mem_about_forest hgathered hd hrecursion))
  loud hreturns hnil := (flourishes_forest hc (List.append_eq_nil_iff.1 hnil).2).not_returns hc hreturns

end Scopes

namespace ModuleSet

/--
Processing a set either runs into a path that cannot be looked at or a loaded file that cannot be parsed at all, before
any tree is built, or it replaces all references to groupings and reports a grouping that comes back to itself.
-/
theorem process_expanded (store : Store) (files : Files) :
    (∃ cause loads, store.Loads files (gather store files).2.store loads
        ∧ Store.Escapes files (gather store files).2.store loads cause
        ∧ (gather store files).2.breakdown = some cause
        ∧ (process ⟨store, none⟩ files).1 = .error (.refused (.breakdown cause)))
      ∨ ∃ problems, (process ⟨store, none⟩ files).1 = .ok problems
        ∧ (gather store files).1.Expanded problems := by
  rw [process_open]
  cases hbreakdown : (gather store files).2.breakdown with
  | some cause =>
    obtain ⟨_, _, hruns⟩ := gather_spec store files
    obtain ⟨loads, hloaded, hcause⟩ := hruns.steps.traced
    exact .inl ⟨cause, loads, hloaded, hcause cause hbreakdown, rfl, rfl⟩
  | none =>
    exact .inr ⟨_, rfl, Scopes.expanded_forest (sound_gather store files).coherent (isPreliminary_gather store files)⟩

def diamondModule : Module :=
  ⟨"m", "u", ⟨"p", none, none, none, none, [], [], [],
    [sampleGrouping, ⟨"h", none, [.container ⟨"c", none, none, none⟩ [.uses ⟨"g", none⟩]]⟩,
      ⟨"i", none, [.container ⟨"d", none, none, none⟩ [.uses ⟨"g", none⟩]]⟩],
    [.uses ⟨"h", none⟩, .uses ⟨"i", none⟩, .uses ⟨"g", none⟩,
      .container ⟨"e", none, none, none⟩ [.uses ⟨"g", none⟩]], [],
    "m.yaml"⟩⟩

example : (Scopes.forest [⟨diamondModule, [.first "m" (.main diamondModule)]⟩]).2.problems = [] := by
  cbv

def loopingModule (imports : List Import) : Module :=
  ⟨"m", "u", ⟨"p", none, none, none, none, imports, [], [], [⟨"g", none, [.uses ⟨"g", none⟩]⟩],
    [.uses ⟨"g", none⟩], [], "m.yaml"⟩⟩

def loopingStore (imports : List Import) : Store :=
  ⟨[], [loopingModule imports], [], [], []⟩

def loopingGrouping (imports : List Import) : Located Grouping :=
  ⟨⟨"g", none, [.uses ⟨"g", none⟩]⟩, .first "m" (.main (loopingModule imports))⟩

theorem returns_looping (imports : List Import) :
    Scopes.Returns [⟨loopingModule imports, [.first "m" (.main (loopingModule imports))]⟩] := by
  have hselects : Scopes.Selects [⟨loopingModule imports, [.first "m" (.main (loopingModule imports))]⟩]
      (.first "m" (.main (loopingModule imports))) "g" (loopingGrouping imports) :=
    ⟨_, List.mem_singleton_self _, rfl, rfl, [], [], rfl, List.forall_mem_nil _⟩
  refine ⟨_, _, [loopingGrouping imports], loopingGrouping imports,
    ⟨⟨_, List.mem_singleton_self _, List.mem_singleton_self _⟩, .inl rfl⟩, ?_, List.mem_singleton_self _⟩
  exact .cons .here hselects (.cons .here hselects .nil)

theorem process_expanded_looping : (gather (loopingStore []) .empty).1.Returns
    ∧ ∃ problems, (process ⟨loopingStore [], none⟩ .empty).1 = .ok problems ∧ problems ≠ []
      ∧ (gather (loopingStore []) .empty).1.Expanded problems := by
  have hgather := @gather_sole .empty (loopingStore []) (loopingModule []) rfl rfl rfl List.nodup_nil
    (List.nodup_singleton _)
  have hreturns : (gather (loopingStore []) .empty).1.Returns := by
    rw [hgather]
    exact returns_looping []
  rcases process_expanded (loopingStore []) .empty with ⟨cause, _, _, _, hbreakdown, _⟩ | ⟨problems, hok, hexpanded⟩
  · rw [hgather] at hbreakdown
    cases hbreakdown
  · exact ⟨hreturns, problems, hok, hexpanded.loud hreturns, hexpanded⟩

theorem process_not_expanded :
    let store := loopingStore [⟨.ofList manyLetters, "q"⟩]
    (gather store .empty).1.Returns
      ∧ (process ⟨store, none⟩ .empty).1
        = .error (.refused (.breakdown (.path ⟨.tooLong, ⟨"", [.ofList fileLetters]⟩⟩))) := by
  intro store
  have hother : String.ofList manyLetters ≠ "m" := ofList_ne_of_length (by rw [length_manyLetters]; decide)
  obtain ⟨problems, hgather⟩ := @gather_of_locate_eq_error .empty store (loopingModule [⟨.ofList manyLetters, "q"⟩])
    ⟨.ofList manyLetters, "q"⟩ _ rfl rfl rfl (by decide : "q" ≠ "p") hother (locate_manyLetters .empty)
  rw [process_open, hgather]
  exact ⟨returns_looping _, rfl⟩

end ModuleSet

end Yang

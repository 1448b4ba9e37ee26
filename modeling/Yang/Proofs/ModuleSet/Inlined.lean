import Yang.Proofs.ModuleSet.Alike
import Yang.Proofs.ModuleSet.Closed
import Yang.Proofs.Tree.Inlined

/-!
This module contains sets with a document in which references to a grouping are replaced by the nodes of the grouping.
Processing has the same result with it, problem by problem and entry by entry.
-/

namespace Yang

namespace ModuleSet

/--
Whether processing two sets has the same result, and whether the same trees are there afterwards.
-/
structure ProcessAlike (files : Files) (set set' : ModuleSet) : Prop where
  result : (set.process files).1 = (set'.process files).1
  outcome : (set.process files).2.outcome = (set'.process files).2.outcome
  toEntry : ∀ name, (set.process files).2.toEntry name = (set'.process files).2.toEntry name
  topLevelEntries : (set.process files).2.topLevelEntries = (set'.process files).2.topLevelEntries

theorem processAlike_of_outcome {files : Files} {set set' : ModuleSet}
    (hresult : (set.process files).1 = (set'.process files).1)
    (houtcome : (set.process files).2.outcome = (set'.process files).2.outcome)
    (hnames : (set.process files).2.store.topLevel.map Module.name
      = (set'.process files).2.store.topLevel.map Module.name) : ProcessAlike files set set' := by
  have hentries : (set.process files).2.toEntry = (set'.process files).2.toEntry := by
    funext name
    unfold ModuleSet.toEntry
    rw [houtcome]
  refine ⟨hresult, houtcome, fun name => by rw [hentries], ?_⟩
  rw [topLevelEntries_eq, topLevelEntries_eq, hentries, hnames]

/--
It makes no difference whether a document refers to a grouping of its own that does not reach itself or has the nodes of
the grouping in the place of the reference.
-/
theorem process_inlined {set set' : ModuleSet} {files : Files} {old new : Document} {head : Uses} {grouping : Grouping}
    (hstore : set.store.Corresponding (Document.Replaced old new) set'.store) (houtcome : set.outcome = set'.outcome)
    (hinlined : old.Inlined head grouping.nodes new)
    (hexpandable : (gather set.store files).1.Expandable old head grouping) : ProcessAlike files set set' := by
  obtain ⟨store, before⟩ := set
  obtain ⟨store', before'⟩ := set'
  dsimp only at hstore houtcome hexpandable
  subst houtcome
  have hl := Document.likeness_replaced hinlined
  have halike := hstore.alike hl
  cases before with
  | some outcome => exact processAlike_of_outcome rfl rfl halike.names_topLevel
  | none =>
    obtain ⟨hscopes, hg⟩ := gather_alike hl halike files
    have hforest : (gather store files).1.forest = (gather store' files).1.forest :=
      Scopes.Inlined.forest ⟨(sound_gather store files).coherent, hscopes, hinlined, hexpandable⟩
    have hproblems := hg.problems.eq trivial
    have hnames := hg.store.names_topLevel
    apply processAlike_of_outcome <;> rw [process_open, process_open, hforest, hproblems, hg.breakdown]
    · split <;> rfl
    · split <;> rfl
    · split <;> exact hnames

def sampleGrouping : Grouping :=
  ⟨"g", none, [.leaf ⟨.free, "a", "string", none, none, false, none, none⟩]⟩

def groupedModule (nodes : List Node) : Module :=
  ⟨"m", "u", ⟨"p", none, none, none, none, [], [], [],
    [sampleGrouping, ⟨"h", none, [.container ⟨"c", none, none, none⟩ nodes]⟩], [.uses ⟨"p:h", none⟩], [], "m.yaml"⟩⟩

def grouped (nodes : List Node) : ModuleSet :=
  ⟨⟨[], [groupedModule nodes], [], [], []⟩, none⟩

theorem gather_grouped (nodes : List Node) (files : Files) :
    gather (grouped nodes).store files
      = ([⟨groupedModule nodes, [⟨.main (groupedModule nodes), "m", [("p", "m")]⟩]⟩],
        ⟨⟨[], [groupedModule nodes], [], [], [.collected "m" 1]⟩, [], none⟩) :=
  gather_sole rfl rfl rfl List.nodup_nil (by decide : ["g", "h"].Nodup)

theorem process_inlined_sample :
    let set := grouped [.uses ⟨"g", none⟩]
    let set' := grouped sampleGrouping.nodes
    let old := Document.main (groupedModule [.uses ⟨"g", none⟩])
    let new := Document.main (groupedModule sampleGrouping.nodes)
    set.store.Corresponding (Document.Replaced old new) set'.store ∧ set.outcome = set'.outcome
      ∧ old.Inlined ⟨"g", none⟩ sampleGrouping.nodes new
      ∧ (gather set.store .empty).1.Expandable old ⟨"g", none⟩ sampleGrouping
      ∧ ProcessAlike .empty set set' := by
  intro set set' old new
  have hstore : set.store.Corresponding (Document.Replaced old new) set'.store :=
    ⟨rfl, rfl, .cons (.inr ⟨rfl, rfl⟩) .nil, .nil⟩
  have hinlined : old.Inlined ⟨"g", none⟩ sampleGrouping.nodes new := by
    refine ⟨rfl, rfl, .cons (.refl _ _ _) (.cons ⟨rfl, rfl, ?_⟩ .nil), .refl _ _ _, .nil⟩
    exact .cons rfl (.uses .nil) .nil
  have hexpandable : (gather set.store .empty).1.Expandable old ⟨"g", none⟩ sampleGrouping := by
    rintro context ⟨scope, hscope, hcontext⟩ _
    rw [gather_grouped] at hscope ⊢
    rw [List.mem_singleton] at hscope
    subst hscope
    rw [List.mem_singleton] at hcontext
    subst hcontext
    refine ⟨by cbv, ?_⟩
    rintro (_ | _ | hinner | hlater)
    · cases hinner
    · cases hlater
  exact ⟨hstore, rfl, hinlined, hexpandable, process_inlined hstore rfl hinlined hexpandable⟩

end ModuleSet

end Yang

import Yang.Proofs.ModuleSet.Closed
import Yang.Proofs.Tree.Pieces
import Yang.Proofs.Tree.Reported

/-!
This module contains what becomes of the augments of a processed set: each is grafted, refused or without a target, as
it has to be in the trees that the set has in the end.
-/

namespace Yang

namespace Scopes

variable {scopes : Scopes} {graft : Graft} {forest forest' : Forest} {w w' : Work}

theorem DecidesAll.split {before after : List (Graft × Verdict)} {verdict : Verdict}
    (h : DecidesAll scopes forest w (before ++ (graft, verdict) :: after) forest' w') :
    ∃ forest₁ w₁ forest₂ w₂, DecidesAll scopes forest w before forest₁ w₁
      ∧ Decides scopes graft forest₁ w₁ verdict forest₂ w₂ ∧ DecidesAll scopes forest₂ w₂ after forest' w' := by
  induction before generalizing forest w with
  | nil =>
    cases h with
    | cons hstep hrest => exact ⟨_, _, _, _, .nil _ _, hstep, hrest⟩
  | cons p rest ih =>
    cases h with
    | cons hstep hrest =>
      obtain ⟨forest₁, w₁, forest₂, w₂, hbefore, hmiddle, hafter⟩ := ih hrest
      exact ⟨forest₁, w₁, forest₂, w₂, .cons hstep hbefore, hmiddle, hafter⟩

def plant (scopes : Scopes) : Forest × Work :=
  scopes.buildAll scopes (fun _ h => h) .empty

/--
What becomes of a forest and of the work when the nodes of an augment are added to the children of the entry that it
goes to. They are added in the place of that entry and for the sake of the module whose document has the augment, and
the children that come of it are put in the place of the earlier ones.
-/
structure Hands (scopes : Scopes) (graft : Graft) (target : Target) (forest : Forest) (w : Work) (entry : Entry)
    (grown : List Entry) (forest' : Forest) (w' : Work) : Prop where
  found : scopes.target forest graft = .ok (some (entry, target))
  spot : (spotOf forest target).head = entry.head
  added : ∃ scope, scopes.scope? graft.context.owner = some scope ∧ graft.context ∈ scope.contexts
    ∧ scopes.addNodes [] (spotOf forest target) graft.context scope.main.asOwner graft.augment.nodes entry.children
        (w.note (.augmenting graft.augment.target graft.context.document.name)) = (entry.children ++ grown, w')
  put : forest' = Entry.regrowIn (entry.children ++ grown) target.module target.names forest
  holds : scopes.target forest' graft = .ok (some (.mk entry.head (entry.children ++ grown), target))

/--
What becomes of all augments on the way from the trees without augments to a forest: every augment gets one verdict,
the one that it has in that forest. An augment that is grafted has its nodes added to the entry that it goes to in
that forest, and no other verdict changes a tree. Each of the others makes one problem, and no more problems are about
targets.
-/
structure Augmented (scopes : Scopes) (forest : Forest) (w : Work) (decided : List (Graft × Verdict)) : Prop where
  once : (decided.map Prod.fst).Perm scopes.grafts
  run : DecidesAll scopes scopes.plant.1 scopes.plant.2 decided forest w
  final : ∀ p ∈ decided, p.2 = scopes.verdict forest p.1
  grafted : ∀ before graft target after, decided = before ++ (graft, .grafted target) :: after →
    ∃ forest₁ w₁ entry grown forest₂ w₂ entry', DecidesAll scopes scopes.plant.1 scopes.plant.2 before forest₁ w₁
      ∧ Hands scopes graft target forest₁ w₁ entry grown forest₂ w₂
      ∧ scopes.target forest graft = .ok (some (entry', target))
      ∧ entry.head = entry'.head ∧ Entry.Gains (entry.children ++ grown) entry'.children
      ∧ DecidesAll scopes forest₂ w₂ after forest w
  refused : ∀ p ∈ decided, ∀ finding, p.2 = .refused finding → finding = .targetNoContainer p.1.augment.target
    ∨ ∃ prefixId, finding = .unknownTargetPrefix prefixId p.1.augment.target
  problems : w.problems.filter Diagnostic.isAboutTarget = decided.filterMap problem?
  gains : ∀ {graft forest₁ w₁ verdict forest₂ w₂}, Decides scopes graft forest₁ w₁ verdict forest₂ w₂ →
    Entry.Gains forest₁ forest₂ ∧ forest₂.map Entry.head = forest₁.map Entry.head

theorem Decides.hands (hc : scopes.Coherent) (hgraft : graft ∈ scopes.grafts) {target : Target}
    (h : Decides scopes graft forest w (.grafted target) forest' w') :
    ∃ entry grown, Hands scopes graft target forest w entry grown forest' w' := by
  obtain ⟨scope, hs, hcontext, _, howner⟩ := ownerOf_of_mem_grafts hc hgraft
  cases h with
  | grafted htarget hadds =>
    obtain ⟨grown, rfl⟩ := (adds_of_addNodes hadds).eq_append
    rw [howner] at hadds
    have hscope : scopes.scope? graft.context.owner = some scope := by
      rw [hc.owner scope hs _ hcontext]
      exact scope?_eq_some_of_mem hc.distinct hs
    exact ⟨_, grown, htarget, (target_eq_some_iff.1 htarget).head_spotOf, ⟨scope, hscope, hcontext, hadds⟩, rfl,
      target_regrowIn htarget _⟩

theorem augmented_forest (hc : scopes.Coherent) (havailable : ∀ graft ∈ scopes.grafts, ∀ segment target name,
    scopes.moduleOf graft segment ≠ .error (.targetUnavailable target name)) :
    ∃ decided, Augmented scopes scopes.forest.1 scopes.forest.2 decided := by
  obtain ⟨decided, honce, hrun, hfinal⟩ := scopes.decides_graftAll scopes.grafts scopes.plant.1 scopes.plant.2
  refine ⟨decided, honce, hrun, hfinal, ?_, ?_, ?_, fun h => ⟨h.gains, h.heads⟩⟩
  · intro before graft target after heq
    subst heq
    obtain ⟨forest₁, w₁, forest₂, w₂, hbefore, hstep, hafter⟩ := hrun.split
    have hgraft : graft ∈ scopes.grafts := honce.mem_iff.1 (List.mem_map_of_mem (f := Prod.fst)
      (List.mem_append_right before List.mem_cons_self))
    obtain ⟨entry, grown, hhands⟩ := hstep.hands hc hgraft
    -- the entry with its new children is still there in the end, with what later augments bring
    have htarget := target_gains scopes graft hafter.gains
    rw [hhands.holds] at htarget
    obtain ⟨entry', hfound, hhead, hbelow⟩ := htarget
    exact ⟨forest₁, w₁, entry, grown, forest₂, w₂, entry', hbefore, hhands, hfound, hhead, hbelow, hafter⟩
  · intro p hp finding hrefused
    have hgraft : p.1 ∈ scopes.grafts := honce.mem_iff.1 (List.mem_map_of_mem hp)
    have hverdict := hfinal p hp
    rw [hrefused] at hverdict
    unfold verdict at hverdict
    split at hverdict
    · next herror =>
      cases hverdict
      rcases target_eq_error herror with hleaf | ⟨segment, hsegment⟩
      · exact .inl hleaf
      · rcases moduleOf_eq_error hsegment with hprefix | ⟨name, rfl⟩
        · exact .inr hprefix
        · exact (havailable p.1 hgraft segment _ name hsegment).elim
    · cases hverdict
    · cases hverdict
  · have hproblems := hrun.aboutTargets
    rw [show scopes.plant.2.aboutTargets = [] from aboutTargets_buildAll _ _ _] at hproblems
    exact hproblems

end Scopes

namespace ModuleSet

/--
When a set was processed, whatever problems were found, each augment has been grafted, refused or found without a target
just once, as it has to be in the trees of the set.
-/
theorem process_augmented {store : Store} {files : Files} {problems : List Diagnostic}
    (hok : (process ⟨store, none⟩ files).1 = .ok problems) :
    ∃ forest w decided, (process ⟨store, none⟩ files).2.outcome = some ⟨problems, forest⟩
      ∧ problems = (gather store files).2.problems ++ w.problems
      ∧ Scopes.Augmented (gather store files).1 forest w decided := by
  have hclosed := closed_process hok
  rw [process_open] at hok ⊢
  split at hok
  · cases hok
  · cases hok
    obtain ⟨decided, haugmented⟩ := Scopes.augmented_forest (sound_gather store files).coherent hclosed.available
    exact ⟨_, _, decided, rfl, rfl, haugmented⟩

theorem process_augmented_sample : (sample.process .empty).1 = .ok []
    ∧ ∃ forest w decided, (sample.process .empty).2.outcome = some ⟨[], forest⟩
      ∧ [] = (gather sample.store .empty).2.problems ++ w.problems
      ∧ Scopes.Augmented (gather sample.store .empty).1 forest w decided :=
  ⟨process_sample _, process_augmented (process_sample _)⟩

end ModuleSet

end Yang

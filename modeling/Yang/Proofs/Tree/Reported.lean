import Yang.Proofs.Tree.About
import Yang.Proofs.Tree.Verdict

/-!
This module contains what is reported about the targets of augments: building trees and adding nodes report nothing
about targets, so each problem of a target is the verdict on one augment.
-/

namespace Yang

def Finding.isAboutTarget : Finding → Bool
  | unknownTargetPrefix .. => true
  | targetUnavailable .. => true
  | targetNoContainer _ => true
  | targetNotFound _ => true
  | _ => false

def Diagnostic.isAboutTarget (d : Diagnostic) : Bool :=
  match d.cause with
  | .statement _ _ finding => finding.isAboutTarget
  | _ => false

namespace Work

def aboutTargets (w : Work) : List Diagnostic :=
  w.problems.filter Diagnostic.isAboutTarget

theorem aboutTargets_eq (w : Work) : w.aboutTargets = w.about Finding.isAboutTarget :=
  rfl

end Work

theorem Finding.apart_isAboutTarget : Finding.Apart Finding.isAboutTarget where
  unknownPrefix _ _ _ := rfl
  unknownName _ _ := rfl
  typedef _ := rfl
  node {finding} h := by cases finding <;> first | rfl | cases h

namespace Scopes

variable {scopes : Scopes} {owner : Owner} {w w' : Work}

theorem Adds.aboutTargets {inside : List DefinitionKey} {spot : Spot} {context : Context} {nodes : List Node}
    {children children' : List Entry} (h : Adds scopes owner inside spot context nodes children w children' w') :
    w'.aboutTargets = w.aboutTargets := by
  induction h with
  | nil => rfl
  | unresolved h _ ih =>
    exact ih.trans (Work.about_report_of_eq_false _ _ (apart_of_resolve Finding.apart_isAboutTarget h))
  | recursive _ _ _ ih => exact ih.trans (Work.about_report_of_eq_false _ _ rfl)
  | expanded _ _ _ _ ihinner ihmore => rw [ihmore, ihinner]
  | misplaced _ h _ ih =>
    exact ih.trans (Work.about_report_of_eq_false _ _
      (Finding.apart_isAboutTarget.node (Node.isAboutNode_of_misplaced? h)))
  | @placed inside spot context node rest children w head w₁ inner w₂ children' w' _ _ hhead _ _ ihinner ihmore =>
    have hmade : w₁.aboutTargets = w.aboutTargets := by
      have hmade := about_makeHead Finding.apart_isAboutTarget scopes owner spot context node w
      rw [hhead] at hmade
      exact hmade
    rw [← hmade, ← ihinner]
    exact ihmore.trans (Work.about_reportAll _ _ fun _ h =>
      Finding.apart_isAboutTarget.node (Node.isAboutNode_of_mem_findings h))

theorem aboutTargets_addDocuments (spot : Spot) (contexts : List Context) (children : List Entry) (w : Work) :
    (scopes.addDocuments spot owner contexts children w).2.aboutTargets = w.aboutTargets := by
  induction contexts generalizing children w with
  | nil => rfl
  | cons context rest ih =>
    unfold addDocuments
    dsimp only
    rw [ih, (adds_addNodes _ _ _ _ _ _ _ _).aboutTargets]

theorem aboutTargets_buildAll (list : List Scope) (isThere : ∀ scope ∈ list, scope ∈ scopes) (w : Work) :
    (scopes.buildAll list isThere w).2.aboutTargets = w.aboutTargets := by
  induction list generalizing w with
  | nil => rfl
  | cons scope rest ih =>
    unfold buildAll
    dsimp only
    rw [ih]
    unfold build
    dsimp only
    rw [Work.aboutTargets_eq, about_settle Finding.apart_isAboutTarget, ← Work.aboutTargets_eq,
      aboutTargets_addDocuments]

variable {graft : Graft} {forest forest' : Forest} {finding : Finding} {decided : List (Graft × Verdict)}

theorem moduleOf_eq_error {segment : Reference} (h : scopes.moduleOf graft segment = .error finding) :
    (∃ prefixId, finding = .unknownTargetPrefix prefixId graft.augment.target)
      ∨ ∃ name, finding = .targetUnavailable graft.augment.target name := by
  unfold moduleOf at h
  split at h
  · cases h
    exact .inl ⟨_, rfl⟩
  · split at h
    · cases h
      exact .inr ⟨_, rfl⟩
    · cases h

theorem follow_eq_error {e : Entry} {before : List String} {segments : List Reference}
    (h : scopes.follow graft e before segments = .error finding) :
    ∃ segment, scopes.moduleOf graft segment = .error finding := by
  induction segments generalizing e before with
  | nil =>
    unfold follow at h
    cases h
  | cons segment rest ih =>
    unfold follow at h
    split at h
    · next herror =>
      cases h
      exact ⟨segment, herror⟩
    · split at h
      · cases h
      · split at h
        · exact ih h
        · cases h

theorem target_eq_error (h : scopes.target forest graft = .error finding) :
    finding = .targetNoContainer graft.augment.target ∨ ∃ segment, scopes.moduleOf graft segment = .error finding := by
  unfold Scopes.target at h
  split at h
  · cases h
    exact .inl rfl
  · next segment rest _ =>
    split at h
    · next herror =>
      cases h
      exact .inr ⟨segment, herror⟩
    · split at h
      · cases h
      · split at h
        · next herror =>
          cases h
          exact .inr (follow_eq_error herror)
        · cases h
        · split at h
          · cases h
            exact .inl rfl
          · cases h

theorem isAboutTarget_of_target (h : scopes.target forest graft = .error finding) : finding.isAboutTarget = true := by
  rcases target_eq_error h with rfl | ⟨segment, h⟩
  · rfl
  · rcases moduleOf_eq_error h with ⟨_, rfl⟩ | ⟨_, rfl⟩
    · rfl
    · rfl

def problem? (p : Graft × Verdict) : Option Diagnostic :=
  (p.2.finding? p.1).map p.1.context.problem

theorem Decides.aboutTargets {verdict : Verdict} (h : Decides scopes graft forest w verdict forest' w') :
    w'.aboutTargets = w.aboutTargets ++ (problem? (graft, verdict)).toList := by
  cases h with
  | grafted _ hadds =>
    rw [(adds_of_addNodes hadds).aboutTargets]
    exact (List.append_nil _).symm
  | refused h =>
    rw [Work.aboutTargets_eq, Work.about_report, isAboutTarget_of_target h]
    rfl
  | missing =>
    rw [Work.aboutTargets_eq, Work.about_report]
    rfl

theorem DecidesAll.aboutTargets (h : DecidesAll scopes forest w decided forest' w') :
    w'.aboutTargets = w.aboutTargets ++ decided.filterMap problem? := by
  induction h with
  | nil => exact (List.append_nil _).symm
  | @cons _ _ _ _ _ _ graft verdict rest hstep _ ih =>
    rw [ih, hstep.aboutTargets, List.append_assoc, List.filterMap_cons]
    cases problem? (graft, verdict) <;> rfl

end Scopes

end Yang

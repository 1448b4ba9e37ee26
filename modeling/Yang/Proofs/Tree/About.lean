import Yang.Proofs.Tree.Adds
import Yang.Proofs.Typing.Meaning

/-!
This module contains the problems that are about something: which of them a step of the work adds, what findings about
nodes are not about, and what resolving types leaves alone.
-/

namespace Yang

def Diagnostic.isAbout (p : Finding → Bool) (d : Diagnostic) : Bool :=
  match d.cause with
  | .statement _ _ finding => p finding
  | _ => false

namespace Work

def about (p : Finding → Bool) (w : Work) : List Diagnostic :=
  w.problems.filter (Diagnostic.isAbout p)

variable {p : Finding → Bool}

theorem about_report (w : Work) (context : Context) (finding : Finding) :
    (w.report context finding).about p = w.about p ++ if p finding then [context.problem finding] else [] := by
  unfold about report
  rw [List.filter_append, List.filter_singleton, Bool.cond_eq_ite]
  rfl

theorem about_report_of_eq_true (w : Work) (context : Context) {finding : Finding} (h : p finding = true) :
    (w.report context finding).about p = w.about p ++ [context.problem finding] := by
  rw [about_report, if_pos h]

theorem about_report_of_eq_false (w : Work) (context : Context) {finding : Finding} (h : p finding = false) :
    (w.report context finding).about p = w.about p := by
  rw [about_report, h]
  exact List.append_nil _

theorem about_reportAll (w : Work) (context : Context) {findings : List Finding}
    (h : ∀ finding ∈ findings, p finding = false) : (w.reportAll context findings).about p = w.about p := by
  unfold about reportAll
  rw [List.filter_append, List.append_right_eq_self, List.filter_eq_nil_iff]
  intro d hd
  obtain ⟨finding, hfinding, rfl⟩ := List.mem_map.1 hd
  rw [show (context.problem finding).isAbout p = p finding from rfl, h finding hfinding]
  exact Bool.false_ne_true

theorem about_remember (w : Work) (key : DefinitionKey) (type : Option ResolvedType) :
    (w.remember key type).about p = w.about p := by
  unfold about
  rw [problems_remember]

end Work

def Finding.isAboutNode : Finding → Bool
  | strayCase _ => true
  | noCase .. => true
  | duplicateNode .. => true
  | writableUnderState .. => true
  | mandatoryWithDefault _ => true
  | noEnums .. => true
  | noPath .. => true
  | noKeyLeaf .. => true
  | noKey _ => true
  | noSuchCase .. => true
  | _ => false

namespace Node

theorem isAboutNode_of_misplaced? {node : Node} {spot : Spot} {siblings : List Entry} {finding : Finding}
    (h : node.misplaced? spot siblings = some finding) : finding.isAboutNode = true := by
  unfold Node.misplaced? at h
  split at h
  · cases h
    rfl
  · split at h
    · cases h
      rfl
    · split at h
      · cases h
        rfl
      · cases h

theorem isAboutNode_of_mem_findings {node : Node} {head : EntryHead} {children : List Entry} {finding : Finding}
    (h : finding ∈ node.findings head children) : finding.isAboutNode = true := by
  have htype : ∀ {kind name}, finding ∈ (head.type.map (typeFindings kind name)).getD [] →
      finding.isAboutNode = true := by
    intro kind name h
    cases htype : head.type with
    | none =>
      rw [htype] at h
      cases h
    | some type =>
      rw [htype] at h
      simp only [Option.map_some, Option.getD_some, typeFindings, List.mem_append, List.mem_ite_nil_right,
        List.mem_singleton] at h
      rcases h with ⟨_, rfl⟩ | ⟨_, rfl⟩ <;> rfl
  cases node with
  | container | case | uses => cases h
  | leaf l =>
    simp only [findings, List.mem_append, List.mem_ite_nil_right, List.mem_singleton] at h
    rcases h with ⟨_, rfl⟩ | h
    · rfl
    · exact htype h
  | leafList l => exact htype h
  | list l nodes =>
    simp only [findings, keyFindings, List.mem_append, List.mem_map, List.mem_ite_nil_right, List.mem_singleton] at h
    rcases h with ⟨key, _, rfl⟩ | ⟨_, rfl⟩ <;> rfl
  | choice c cases =>
    simp only [findings] at h
    split at h
    · rw [List.mem_ite_nil_left, List.mem_singleton] at h
      rw [h.2]
      rfl
    · cases h

end Node

theorem Scopes.resolve_eq_error {α : Type} [Defined α] {scopes : Scopes} {context : Context} {text : String}
    {finding : Finding} (h : (scopes.resolve context text : Except Finding (Located α)) = .error finding) :
    (context.moduleOf? (Reference.ofText text).prefixId = none
        ∧ finding = .unknownPrefix ((Reference.ofText text).prefixId.getD "") (Defined.kind α) text)
      ∨ ((context.moduleOf? (Reference.ofText text).prefixId).isSome = true
        ∧ finding = .unknownName (Defined.kind α) text) := by
  unfold resolve at h
  dsimp only at h
  split at h
  · next hnone =>
    cases h
    exact .inl ⟨hnone, rfl⟩
  · next hsome =>
    split at h
    · cases h
      exact .inr ⟨by rw [hsome]; rfl, rfl⟩
    · cases h

structure Finding.Apart (p : Finding → Bool) : Prop where
  unknownPrefix : ∀ prefixId what text, p (.unknownPrefix prefixId what text) = false
  unknownName : ∀ what text, p (.unknownName what text) = false
  typedef : ∀ name, p (.recursive .typedef name) = false
  node : ∀ {finding : Finding}, finding.isAboutNode = true → p finding = false

namespace Scopes

variable {p : Finding → Bool} {scopes : Scopes}

theorem apart_of_resolve {α : Type} [Defined α] (hp : Finding.Apart p) {context : Context} {text : String}
    {finding : Finding} (h : (scopes.resolve context text : Except Finding (Located α)) = .error finding) :
    p finding = false := by
  rcases resolve_eq_error h with ⟨_, rfl⟩ | ⟨_, rfl⟩
  · exact hp.unknownPrefix _ _ _
  · exact hp.unknownName _ _

theorem about_typing (hp : Finding.Apart p) (scopes : Scopes) (w : Work) :
    (∀ inside context reference declared,
      (scopes.typeOf inside context reference declared w).2.about p = w.about p)
    ∧ ∀ inside found isThere, (scopes.typeOfTypedef inside found isThere w).2.about p = w.about p := by
  apply typeOf.mutual_induct scopes w
    (fun inside context reference declared =>
      (scopes.typeOf inside context reference declared w).2.about p = w.about p)
    (fun inside found isThere => (scopes.typeOfTypedef inside found isThere w).2.about p = w.about p)
  · intro inside context reference declared hb
    rw [typeOf_builtin hb]
  · intro inside context reference declared hb finding hfinding
    rw [Bool.not_eq_true] at hb
    rw [typeOf_of_resolve_eq_error hb hfinding]
    exact w.about_report_of_eq_false context (apart_of_resolve hp hfinding)
  · intro inside context reference declared hb found hfound base w' heq ih
    rw [Bool.not_eq_true] at hb
    rw [typeOf_of_resolve_eq_ok hb hfound]
    exact ih
  · intro inside found isThere known hknown
    rw [typeOfTypedef, hknown]
  · intro inside found isThere hnew hin
    rw [typeOfTypedef, hnew]
    dsimp only
    rw [dif_pos hin, Work.about_remember]
    exact w.about_report_of_eq_false _ (hp.typedef _)
  · intro inside found isThere hnew hout inner w' heq ih
    rw [typeOfTypedef, hnew]
    dsimp only
    rw [dif_neg hout, Work.about_remember]
    exact ih

theorem about_makeHead (hp : Finding.Apart p) (scopes : Scopes) (owner : Owner) (spot : Spot) (context : Context)
    (node : Node) (w : Work) : (scopes.makeHead spot context owner node w).2.about p = w.about p := by
  obtain ⟨w₁, hreport, hcases⟩ := makeHead_cases scopes spot context owner node w
  have hstart : w₁.about p = w.about p := by
    rcases hreport with rfl | rfl
    · rfl
    · exact w.about_report_of_eq_false context (hp.node rfl)
  rcases hcases with ⟨_, heq⟩ | ⟨reference, declared, _, heq⟩
  · rw [heq]
    exact hstart
  · rw [heq, ← hstart]
    exact (about_typing hp scopes w₁).1 _ _ _ _

theorem about_settle (hp : Finding.Apart p) (found : List (Located Typedef))
    (isThere : ∀ l ∈ found, l ∈ scopes.definitions Typedef) (w : Work) :
    (scopes.settle found isThere w).about p = w.about p := by
  induction found generalizing w with
  | nil => rfl
  | cons l rest ih =>
    unfold settle
    dsimp only
    rw [ih, (about_typing hp scopes w).2]

end Scopes

end Yang

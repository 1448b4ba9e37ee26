import Yang.Proofs.Entry.Visits
import Yang.Proofs.Tree.Borne
import Yang.Proofs.Typing.Diagnosed

/-!
This module contains the account of the problems with types while entries are made. Each entry that a node makes adds
the problem of the reference of that node, if there is one, and nothing else that is reported about nodes is about
types.
-/

namespace Yang

/--
An entry, where it stands, and the node in a document that it is made of.
-/
structure Making where
  visit : Entry.Visit
  context : Context
  node : Node

theorem Finding.isAboutType_of_isAboutNode {finding : Finding} (h : finding.isAboutNode = true) :
    finding.isAboutType = false := by
  cases finding <;> first | rfl | cases h

namespace Scopes

def complaintAt? (scopes : Scopes) (context : Context) (node : Node) : Option Diagnostic :=
  node.typed?.bind fun typed => scopes.complaint? context typed.1

def complaintFor? (scopes : Scopes) (m : Making) : Option Diagnostic :=
  scopes.complaintAt? m.context m.node

structure Makings (scopes : Scopes) (owner : Owner) (context : Context) (nodes : List Node) (above : List EntryHead)
    (w : Work) (grown : List Entry) (makings : List Making) (w' : Work) : Prop where
  visits : makings.map Making.visit = Entry.visitsAll above grown
  stems : ∀ m ∈ makings, scopes.Stems context nodes m.context m.node
  makes : ∀ m ∈ makings, scopes.Makes owner m.context m.node m.visit.head
  tells : scopes.Tells w w' (makings.filterMap scopes.complaintFor?)

variable {scopes : Scopes} {owner : Owner} {context : Context} {nodes : List Node} {node : Node}
  {above : List EntryHead} {grown more : List Entry} {w w' w'' : Work} {made others : List Making}

theorem Makings.nil (scopes : Scopes) (owner : Owner) (context : Context) (nodes : List Node) (above : List EntryHead)
    (w : Work) : Makings scopes owner context nodes above w [] [] w where
  visits := rfl
  stems := List.forall_mem_nil _
  makes := List.forall_mem_nil _
  tells := .refl scopes w

theorem Makings.skip (h : Makings scopes owner context nodes above w' grown made w'') (node : Node)
    (htells : scopes.Tells w w' []) : Makings scopes owner context (node :: nodes) above w grown made w'' where
  visits := h.visits
  stems := fun m hm => (h.stems m hm).mono fun _ hn => List.mem_cons_of_mem _ hn
  makes := h.makes
  tells := htells.trans h.tells

theorem Makings.expanded {head : Uses} {found : Located Grouping}
    (hselects : scopes.Selects context head.grouping found)
    (h : Makings scopes owner found.context found.definition.nodes above w grown made w')
    (h' : Makings scopes owner context nodes above w' more others w'') :
    Makings scopes owner context (.uses head :: nodes) above w (grown ++ more) (made ++ others) w'' where
  visits := by
    rw [List.map_append, h.visits, h'.visits, Entry.visitsAll_append]
  stems := by
    rw [List.forall_mem_append]
    exact ⟨fun m hm => (h.stems m hm).uses List.mem_cons_self hselects,
      fun m hm => (h'.stems m hm).mono fun _ hn => List.mem_cons_of_mem _ hn⟩
  makes := List.forall_mem_append.2 ⟨h.makes, h'.makes⟩
  tells := by
    rw [List.filterMap_append]
    exact h.tells.trans h'.tells

theorem Makings.placed {head : EntryHead} {w₁ w₂ : Work} (hkind : node.kind ≠ .uses)
    (hmakes : scopes.Makes owner context node head)
    (hhead : scopes.Tells w w₁ (scopes.complaintAt? context node).toList)
    (h : Makings scopes owner context node.children (head :: above) w₁ grown made w₂) (hdone : scopes.Tells w₂ w' [])
    (h' : Makings scopes owner context nodes above w' more others w'') :
    Makings scopes owner context (node :: nodes) above w (.mk head grown :: more)
      (⟨⟨head, above⟩, context, node⟩ :: (made ++ others)) w'' where
  visits := by
    rw [List.map_cons, List.map_append, h.visits, h'.visits, Entry.visitsAll, Entry.visits, List.cons_append]
  stems := by
    rw [List.forall_mem_cons, List.forall_mem_append]
    exact ⟨.top (.here List.mem_cons_self hkind), fun m hm => (h.stems m hm).inside List.mem_cons_self hkind,
      fun m hm => (h'.stems m hm).mono fun _ hn => List.mem_cons_of_mem _ hn⟩
  makes := by
    rw [List.forall_mem_cons, List.forall_mem_append]
    exact ⟨hmakes, h.makes, h'.makes⟩
  tells := by
    have hall := hhead.trans (h.tells.trans (hdone.trans h'.tells))
    rw [List.filterMap_cons, List.filterMap_append]
    unfold complaintFor? at hall ⊢
    dsimp only
    generalize scopes.complaintAt? context node = complaint at hall ⊢
    cases complaint <;> exact hall

theorem Makes.isLeaf {head : EntryHead} (h : scopes.Makes owner context node head) :
    head.kind.isLeaf = node.typed?.isSome := by
  obtain ⟨writable, type, _, rfl⟩ := h.made
  cases node <;> rfl

theorem isAboutType_of_resolve_grouping {reference : String} {finding : Finding}
    (h : (scopes.resolve context reference : Except Finding (Located Grouping)) = .error finding) :
    finding.isAboutType = false := by
  rcases resolve_eq_error h with ⟨_, rfl⟩ | ⟨_, rfl⟩ <;> rfl

theorem tells_makeHead (hc : scopes.Coherent) (spot : Spot) (context : Context) (owner : Owner) (node : Node)
    (w : Work) :
    scopes.Tells w (scopes.makeHead spot context owner node w).2 (scopes.complaintAt? context node).toList := by
  obtain ⟨w₁, hreport, hcases⟩ := makeHead_cases scopes spot context owner node w
  have hstart : scopes.Tells w w₁ [] := by
    rcases hreport with rfl | rfl
    · exact .refl scopes _
    · exact tells_report rfl
  unfold complaintAt?
  rcases hcases with ⟨htyped, heq⟩ | ⟨reference, declared, htyped, heq⟩
  · rw [heq, htyped]
    exact hstart
  · rw [heq, htyped]
    exact hstart.trans (tells_typeOf hc declared)

theorem Adds.makings (hc : scopes.Coherent) {inside : List DefinitionKey} {spot : Spot}
    {children children' : List Entry}
    (h : Adds scopes owner inside spot context nodes children w children' w') (hw : scopes.Reached w)
    (above : List EntryHead) : ∃ grown made, children' = children ++ grown
      ∧ Makings scopes owner context nodes above w grown made w' := by
  induction h generalizing above with
  | nil => exact ⟨[], [], (List.append_nil _).symm, .nil _ _ _ _ _ _⟩
  | unresolved h _ ih =>
    obtain ⟨grown, made, heq, hmade⟩ := ih (hw.report _ _) above
    exact ⟨grown, made, heq, hmade.skip _ (tells_report (isAboutType_of_resolve_grouping h))⟩
  | recursive _ _ _ ih =>
    obtain ⟨grown, made, heq, hmade⟩ := ih (hw.report _ _) above
    exact ⟨grown, made, heq, hmade.skip _ (tells_report rfl)⟩
  | misplaced _ h _ ih =>
    obtain ⟨grown, made, heq, hmade⟩ := ih (hw.report _ _) above
    have hfinding := Finding.isAboutType_of_isAboutNode (Node.isAboutNode_of_misplaced? h)
    exact ⟨grown, made, heq, hmade.skip _ (tells_report hfinding)⟩
  | expanded h _ hinner _ ihinner ihmore =>
    obtain ⟨grown, made, rfl, hmade⟩ := ihinner hw above
    obtain ⟨more, others, rfl, hothers⟩ := ihmore (hinner.reached hw) above
    exact ⟨grown ++ more, made ++ others, List.append_assoc _ _ _, hmade.expanded (hc.selects_iff.2 h) hothers⟩
  | @placed inside spot context node rest children w head w₁ inner w₂ children' w' hkind _ hhead hinner _ ihinner
      ihmore =>
    have hmakes := makes_makeHead hc hw spot context owner node
    have htells := tells_makeHead hc spot context owner node w
    have hw₁ := hw.makeHead owner spot context node
    rw [hhead] at hmakes htells hw₁
    obtain ⟨grown, made, heq, hmade⟩ := ihinner hw₁ (head :: above)
    rw [List.nil_append] at heq
    subst heq
    obtain ⟨more, others, rfl, hothers⟩ := ihmore ((hinner.reached hw₁).reportAll _ _) above
    have hdone : scopes.Tells w₂ (w₂.reportAll context (node.findings head inner)) [] :=
      tells_reportAll fun _ h => Finding.isAboutType_of_isAboutNode (Node.isAboutNode_of_mem_findings h)
    exact ⟨.mk head inner :: more, _, by simp, .placed hkind hmakes htells hmade hdone hothers⟩

end Scopes

end Yang

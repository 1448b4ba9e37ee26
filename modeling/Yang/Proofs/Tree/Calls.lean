import Yang.Proofs.Tree.Chain
import Yang.Proofs.Tree.Pieces
import Yang.Proofs.Tree.Reported

/-!
This module contains the references to groupings that are met while nodes are added. Adding nodes is inside of some
groupings when it meets a reference, and these are the chain that leads to it. It goes into the grouping unless it is
inside of it already; then it reports the grouping as recursive, and nothing else is reported that way.
-/

namespace Yang

def Finding.isRecursion : Finding → Bool
  | recursive .grouping _ => true
  | _ => false

theorem Finding.apart_isRecursion : Finding.Apart Finding.isRecursion where
  unknownPrefix _ _ _ := rfl
  unknownName _ _ := rfl
  typedef _ := rfl
  node {finding} h := by cases finding <;> first | rfl | cases h

structure Call where
  inside : List DefinitionKey
  context : Context
  found : Located Grouping

namespace Call

def isRecursive (call : Call) : Bool :=
  call.inside.contains call.found.key

def problem (call : Call) : Diagnostic :=
  call.context.problem (.recursive .grouping call.found.definition.name)

def problem? (call : Call) : Option Diagnostic :=
  if call.isRecursive then some call.problem else none

end Call

namespace Scopes

inductive Calls (scopes : Scopes) (owner : Owner) :
    List DefinitionKey → Spot → Context → List Node → List Entry → Work → List Call → List Entry → Work → Prop
  | nil {inside spot context children w} :
    Calls scopes owner inside spot context [] children w [] children w
  | unresolved {inside spot context head rest children w calls children' w'} {finding : Finding}
    (h : (scopes.resolve context head.grouping : Except Finding (Located Grouping)) = .error finding)
    (more : Calls scopes owner inside spot context rest children (w.report context finding) calls children' w') :
    Calls scopes owner inside spot context (.uses head :: rest) children w calls children' w'
  | recursive {inside spot context head rest children w calls children' w'} {found : Located Grouping}
    (h : scopes.resolve context head.grouping = .ok found) (hin : inside.contains found.key = true)
    (more : Calls scopes owner inside spot context rest children
      (w.report context (.recursive .grouping found.definition.name)) calls children' w') :
    Calls scopes owner inside spot context (.uses head :: rest) children w (⟨inside, context, found⟩ :: calls)
      children' w'
  | expanded {inside spot context head rest children w calls children₁ w₁ calls' children' w'}
    {found : Located Grouping}
    (h : scopes.resolve context head.grouping = .ok found) (hout : inside.contains found.key = false)
    (inner : Calls scopes owner (found.key :: inside) spot found.context found.definition.nodes children w
      calls children₁ w₁)
    (more : Calls scopes owner inside spot context rest children₁ w₁ calls' children' w') :
    Calls scopes owner inside spot context (.uses head :: rest) children w
      (⟨inside, context, found⟩ :: (calls ++ calls')) children' w'
  | misplaced {inside spot context node rest children w calls children' w'} {finding : Finding}
    (hkind : node.kind ≠ .uses) (h : node.misplaced? spot children = some finding)
    (more : Calls scopes owner inside spot context rest children (w.report context finding) calls children' w') :
    Calls scopes owner inside spot context (node :: rest) children w calls children' w'
  | placed {inside spot context node rest children w head w₁ calls inner w₂ calls' children' w'}
    (hkind : node.kind ≠ .uses) (h : node.misplaced? spot children = none)
    (hhead : scopes.makeHead spot context owner node w = (head, w₁))
    (inside_ : Calls scopes owner inside (spot.down head) context node.children [] w₁ calls inner w₂)
    (more : Calls scopes owner inside spot context rest (children ++ [.mk head inner])
      (w₂.reportAll context (node.findings head inner)) calls' children' w') :
    Calls scopes owner inside spot context (node :: rest) children w (calls ++ calls') children' w'

variable {scopes : Scopes} {owner : Owner} {inside : List DefinitionKey} {spot : Spot} {context : Context}
  {nodes : List Node} {children children' : List Entry} {w w' : Work} {calls : List Call}

theorem Adds.exists_calls (h : Adds scopes owner inside spot context nodes children w children' w') :
    ∃ calls, Calls scopes owner inside spot context nodes children w calls children' w' := by
  induction h with
  | nil => exact ⟨[], .nil⟩
  | unresolved h _ ih =>
    obtain ⟨calls, hcalls⟩ := ih
    exact ⟨calls, .unresolved h hcalls⟩
  | recursive h hin _ ih =>
    obtain ⟨calls, hcalls⟩ := ih
    exact ⟨_, .recursive h hin hcalls⟩
  | expanded h hout _ _ ihinner ihmore =>
    obtain ⟨calls, hcalls⟩ := ihinner
    obtain ⟨calls', hcalls'⟩ := ihmore
    exact ⟨_, .expanded h hout hcalls hcalls'⟩
  | misplaced hkind h _ ih =>
    obtain ⟨calls, hcalls⟩ := ih
    exact ⟨calls, .misplaced hkind h hcalls⟩
  | placed hkind h hhead _ _ ihinner ihmore =>
    obtain ⟨calls, hcalls⟩ := ihinner
    obtain ⟨calls', hcalls'⟩ := ihmore
    exact ⟨_, .placed hkind h hhead hcalls hcalls'⟩

theorem Calls.adds (h : Calls scopes owner inside spot context nodes children w calls children' w') :
    Adds scopes owner inside spot context nodes children w children' w' := by
  induction h with
  | nil => exact .nil
  | unresolved h _ ih => exact .unresolved h ih
  | recursive h hin _ ih => exact .recursive h hin ih
  | expanded h hout _ _ ihinner ihmore => exact .expanded h hout ihinner ihmore
  | misplaced hkind h _ ih => exact .misplaced hkind h ih
  | placed hkind h hhead _ _ ihinner ihmore => exact .placed hkind h hhead ihinner ihmore

theorem Calls.nodup (h : Calls scopes owner inside spot context nodes children w calls children' w')
    (hnodup : inside.Nodup) : ∀ call ∈ calls, call.inside.Nodup := by
  induction h with
  | nil => exact List.forall_mem_nil _
  | unresolved _ _ ih => exact ih hnodup
  | recursive _ _ _ ih => exact List.forall_mem_cons.2 ⟨hnodup, ih hnodup⟩
  | expanded _ hout _ _ ihinner ihmore =>
    rw [List.forall_mem_cons, List.forall_mem_append]
    exact ⟨hnodup, ihinner (List.nodup_cons.2 ⟨by simpa using hout, hnodup⟩), ihmore hnodup⟩
  | misplaced _ _ _ ih => exact ih hnodup
  | placed _ _ _ _ _ ihinner ihmore => exact List.forall_mem_append.2 ⟨ihinner hnodup, ihmore hnodup⟩

def Met (scopes : Scopes) (inside : List DefinitionKey) (context : Context) (nodes : List Node) (call : Call) : Prop :=
  ∃ chain, scopes.Chain context nodes (chain ++ [call.found])
    ∧ call.inside = (chain.map Located.key).reverse ++ inside

theorem Met.mono {more : List Node} {call : Call} (h : scopes.Met inside context nodes call)
    (hsub : ∀ head : Uses, head.StandsIn nodes → head.StandsIn more) : scopes.Met inside context more call := by
  obtain ⟨chain, hchain, heq⟩ := h
  exact ⟨chain, hchain.mono hsub, heq⟩

theorem Met.enter {head : Uses} {found : Located Grouping} {call : Call}
    (h : scopes.Met (found.key :: inside) found.context found.definition.nodes call) (hstands : head.StandsIn nodes)
    (hselects : scopes.Selects context head.grouping found) : scopes.Met inside context nodes call := by
  obtain ⟨chain, hchain, heq⟩ := h
  refine ⟨found :: chain, .cons hstands hselects hchain, ?_⟩
  rw [heq, List.map_cons, List.reverse_cons, List.append_assoc]
  rfl

theorem Calls.met (hc : scopes.Coherent)
    (h : Calls scopes owner inside spot context nodes children w calls children' w') :
    ∀ call ∈ calls, scopes.Met inside context nodes call := by
  have hhere : ∀ {context head rest inside} {found : Located Grouping},
      scopes.resolve context head.grouping = .ok found →
      scopes.Met inside context (.uses head :: rest) ⟨inside, context, found⟩ := fun h =>
    ⟨[], .cons .here (hc.selects_iff.2 h) .nil, rfl⟩
  have hlater : ∀ {inside context node rest} {calls : List Call},
      (∀ call ∈ calls, scopes.Met inside context rest call) →
      ∀ call ∈ calls, scopes.Met inside context (node :: rest) call :=
    fun hmet call hcall => (hmet call hcall).mono fun _ => .later
  induction h with
  | nil => exact List.forall_mem_nil _
  | unresolved _ _ ih => exact hlater ih
  | recursive h _ _ ih => exact List.forall_mem_cons.2 ⟨hhere h, hlater ih⟩
  | expanded h _ _ _ ihinner ihmore =>
    rw [List.forall_mem_cons, List.forall_mem_append]
    refine ⟨hhere h, fun call hcall => ?_, hlater ihmore⟩
    exact (ihinner call hcall).enter .here (hc.selects_iff.2 h)
  | misplaced _ _ _ ih => exact hlater ih
  | placed _ _ _ _ _ ihinner ihmore =>
    refine List.forall_mem_append.2 ⟨fun call hcall => ?_, hlater ihmore⟩
    exact (ihinner call hcall).mono fun _ => .inner

theorem Met.length_le (hc : scopes.Coherent) {call : Call} (h : scopes.Met [] context nodes call)
    (hnodup : call.inside.Nodup) : call.inside.length ≤ (scopes.definitions Grouping).length := by
  obtain ⟨chain, hchain, heq⟩ := h
  rw [← List.length_map (f := Located.key)]
  refine (List.subperm_of_subset hnodup fun key hkey => ?_).length_le
  rw [heq, List.append_nil, List.mem_reverse] at hkey
  obtain ⟨l, hl, rfl⟩ := List.mem_map.1 hkey
  exact List.mem_map_of_mem (hchain.mem_definitions hc l (List.mem_append_left _ hl))

theorem Calls.about (h : Calls scopes owner inside spot context nodes children w calls children' w') :
    w'.about Finding.isRecursion = w.about Finding.isRecursion ++ calls.filterMap Call.problem? := by
  have hapart := Finding.apart_isRecursion
  induction h with
  | nil => exact (List.append_nil _).symm
  | unresolved h _ ih => rw [ih, Work.about_report_of_eq_false _ _ (apart_of_resolve hapart h)]
  | @recursive inside spot context head rest children w calls children' w' found h hin _ ih =>
    have hproblem : Call.problem? ⟨inside, context, found⟩ = some (Call.problem ⟨inside, context, found⟩) := if_pos hin
    rw [ih, Work.about_report_of_eq_true _ _ rfl, List.filterMap_cons_some hproblem, List.append_assoc]
    rfl
  | @expanded inside spot context head rest children w calls children₁ w₁ calls' children' w' found h hout _ _ ihinner
      ihmore =>
    have hnone : Call.problem? ⟨inside, context, found⟩ = none := if_neg (Bool.eq_false_iff.1 hout)
    rw [ihmore, ihinner, List.filterMap_cons_none hnone, List.filterMap_append, List.append_assoc]
  | misplaced _ h _ ih =>
    rw [ih, Work.about_report_of_eq_false _ _ (hapart.node (Node.isAboutNode_of_misplaced? h))]
  | @placed inside spot context node rest children w head w₁ calls inner w₂ calls' children' w' _ _ hhead _ _ ihinner
      ihmore =>
    have hmade := about_makeHead hapart scopes owner spot context node w
    rw [hhead] at hmade
    rw [ihmore, Work.about_reportAll _ _ fun _ h => hapart.node (Node.isAboutNode_of_mem_findings h), ihinner, hmade,
      List.filterMap_append, List.append_assoc]

def Warranted (scopes : Scopes) (w : Work) : Prop :=
  ∀ d ∈ w.about Finding.isRecursion, ∃ (context : Context) (nodes : List Node) (call : Call),
    scopes.Starts context nodes ∧ scopes.Met [] context nodes call ∧ call.problem? = some d

theorem Warranted.of_about_eq (hw : scopes.Warranted w)
    (h : w'.about Finding.isRecursion = w.about Finding.isRecursion) :
    scopes.Warranted w' := by
  unfold Warranted
  rw [h]
  exact hw

theorem Warranted.report (hw : scopes.Warranted w) (context : Context) {finding : Finding}
    (h : finding.isRecursion = false) : scopes.Warranted (w.report context finding) :=
  hw.of_about_eq (w.about_report_of_eq_false context h)

theorem Warranted.adds (hc : scopes.Coherent) (hw : scopes.Warranted w) (hstarts : scopes.Starts context nodes)
    (h : Adds scopes owner [] spot context nodes children w children' w') : scopes.Warranted w' := by
  obtain ⟨calls, hcalls⟩ := h.exists_calls
  intro d hd
  rw [hcalls.about] at hd
  rcases List.mem_append.1 hd with hd | hd
  · exact hw d hd
  · obtain ⟨call, hcall, hproblem⟩ := List.mem_filterMap.1 hd
    exact ⟨context, nodes, call, hstarts, hcalls.met hc call hcall, hproblem⟩

theorem Warranted.addDocuments (hc : scopes.Coherent) (hw : scopes.Warranted w) (owner : Owner) (spot : Spot)
    {contexts : List Context} (hcontexts : ∀ context ∈ contexts, scopes.Shows context) (children : List Entry) :
    scopes.Warranted (scopes.addDocuments spot owner contexts children w).2 := by
  induction contexts generalizing children w with
  | nil => exact hw
  | cons context rest ih =>
    rw [List.forall_mem_cons] at hcontexts
    unfold Scopes.addDocuments
    dsimp only
    exact ih (hw.adds hc ⟨hcontexts.1, .inl rfl⟩ (adds_addNodes _ _ _ _ _ _ _ _)) hcontexts.2 _

theorem Warranted.buildAll (hc : scopes.Coherent) (hw : scopes.Warranted w) (list : List Scope)
    (isThere : ∀ scope ∈ list, scope ∈ scopes) : scopes.Warranted (scopes.buildAll list isThere w).2 := by
  induction list generalizing w with
  | nil => exact hw
  | cons scope rest ih =>
    unfold Scopes.buildAll build
    dsimp only
    apply ih
    apply Warranted.of_about_eq _ (about_settle Finding.apart_isRecursion _ _ _)
    exact hw.addDocuments hc _ _ (fun context h => ⟨scope, isThere scope List.mem_cons_self, h⟩) []

theorem isRecursion_of_target {graft : Graft} {forest : Forest} {finding : Finding}
    (h : scopes.target forest graft = .error finding) : finding.isRecursion = false := by
  have htarget := isAboutTarget_of_target h
  cases finding <;> first | rfl | cases htarget

theorem Warranted.decides (hc : scopes.Coherent) {graft : Graft} {verdict : Verdict} {forest forest' : Forest}
    (hw : scopes.Warranted w) (hgraft : graft ∈ scopes.grafts) (h : Decides scopes graft forest w verdict forest' w') :
    scopes.Warranted w' := by
  cases h with
  | grafted _ hadds =>
    obtain ⟨scope, hs, hcontext, haugment, _⟩ := ownerOf_of_mem_grafts hc hgraft
    have hstarts : scopes.Starts graft.context graft.augment.nodes := ⟨⟨scope, hs, hcontext⟩, .inr ⟨_, haugment, rfl⟩⟩
    have hnoted : scopes.Warranted (w.note (.augmenting graft.augment.target graft.context.document.name)) := hw
    exact hnoted.adds hc hstarts (adds_of_addNodes hadds)
  | refused h => exact hw.report _ (isRecursion_of_target h)
  | missing => exact hw.report _ rfl

theorem Warranted.decidesAll (hc : scopes.Coherent) {decided : List (Graft × Verdict)} {forest forest' : Forest}
    (hw : scopes.Warranted w) (hgrafts : ∀ p ∈ decided, p.1 ∈ scopes.grafts)
    (h : DecidesAll scopes forest w decided forest' w') : scopes.Warranted w' := by
  induction h with
  | nil => exact hw
  | cons hstep _ ih =>
    rw [List.forall_mem_cons] at hgrafts
    exact ih (hw.decides hc hgrafts.1 hstep) hgrafts.2

theorem warranted_forest (hc : scopes.Coherent) : scopes.Warranted scopes.forest.2 := by
  have isThere : ∀ scope ∈ scopes, scope ∈ scopes := fun _ h => h
  have hempty : scopes.Warranted .empty := by
    intro d hd
    cases hd
  have hbuilt := hempty.buildAll hc scopes isThere
  obtain ⟨decided, hperm, hall, _⟩ := scopes.decides_graftAll scopes.grafts
    (scopes.buildAll scopes isThere .empty).1 (scopes.buildAll scopes isThere .empty).2
  exact hbuilt.decidesAll hc (fun p hp => hperm.mem_iff.1 (List.mem_map_of_mem hp)) hall

theorem Warranted.returns (hw : scopes.Warranted w) {d : Diagnostic} (hd : d ∈ w.about Finding.isRecursion) :
    scopes.Returns := by
  obtain ⟨context, nodes, call, hstarts, ⟨chain, hchain, heq⟩, hproblem⟩ := hw d hd
  refine ⟨context, nodes, chain, call.found, hstarts, hchain, ?_⟩
  obtain ⟨hrecursive, _⟩ := Option.ite_none_right_eq_some.1 hproblem
  unfold Call.isRecursive at hrecursive
  rw [List.contains_iff_mem, heq, List.append_nil, List.mem_reverse] at hrecursive
  exact hrecursive

end Scopes

end Yang

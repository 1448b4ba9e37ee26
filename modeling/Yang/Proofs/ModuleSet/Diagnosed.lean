import Yang.Proofs.Gather.Findings
import Yang.Proofs.ModuleSet.Owned
import Yang.Proofs.ModuleSet.Reordered
import Yang.Proofs.Tree.Diagnosed
import Yang.Proofs.Tree.Reported

/-!
This module contains the problems with types that processing reports. Each cycle of derived types makes one of them,
each derived type whose reference stands for nothing makes one, and each entry whose own reference stands for nothing
makes one. There are no others, in whatever order the types are come to.
-/

namespace Yang

structure Making.Sound (scopes : Scopes) (m : Making) : Prop where
  made : ∃ scope ∈ scopes, scopes.ExpandsFor scope m.context m.node
    ∧ scopes.Makes scope.main.asOwner m.context m.node m.visit.head
  stands : scopes.Shows m.context ∧ ∃ beside, m.context.document.Holds beside ∧ m.node ∈ beside

def Entry.root (e : Entry) : Entry.Visit :=
  ⟨e.head, []⟩

namespace Scopes

/--
Whether the entries of a forest are the roots of its trees and those that were made of nodes, each of them once.
-/
structure Composed (scopes : Scopes) (forest : Forest) (made : List Making) : Prop where
  visits : (forest.map Entry.root ++ made.map Making.visit).Perm (Entry.visitsAll [] forest)
  sound : ∀ m ∈ made, m.Sound scopes

/--
Whether the problems with types are those that they have to be: one for each cycle of derived types, one for each
derived type whose reference stands for nothing, and one for each entry whose reference stands for nothing.
-/
structure Diagnoses (scopes : Scopes) (forest : Forest) (recursions : List (Located Typedef)) (made : List Making)
    (problems : List Diagnostic) : Prop where
  keys : ((scopes.firsts Typedef).map Located.key).Nodup
  vertices : ∀ l ∈ scopes.definitions Typedef, ∃ k ∈ scopes.firsts Typedef, k.key = l.key
  edges : ∀ l k, scopes.Refers l k → k ∈ scopes.firsts Typedef ∧ ∀ other, scopes.Refers l other → other = k
  nodup : recursions.Nodup
  recursive : ∀ r ∈ recursions, r ∈ scopes.firsts Typedef ∧ scopes.Leads r r
  cycles : ∀ l ∈ scopes.firsts Typedef, scopes.Leads l l →
    ∃! r, r ∈ recursions ∧ scopes.Leads l r ∧ scopes.Leads r l
  composed : Composed scopes forest made
  leaves : ∀ m ∈ made, m.node.typed?.isSome = m.visit.head.kind.isLeaf
  complaints : ∀ context reference d, scopes.complaint? context reference = some d
    ↔ scopes.Dangles context reference ∧ d = context.problem (context.unresolved reference)
  reported : (problems.filter (Diagnostic.isAbout Finding.isAboutType)).Perm (recursions.map Located.recursion
    ++ ((scopes.firsts Typedef).filterMap scopes.complaintOf? ++ made.filterMap scopes.complaintFor?))
  resolved : problems = [] → ∀ l ∈ scopes.definitions Typedef,
    ∃ hops base, scopes.Way l.context l.definition.type hops base

section

variable {scopes : Scopes} {scope : Scope} {context : Context} {nodes : List Node} {above : List EntryHead}
  {grown : List Entry} {w w' : Work} {made : List Making}

theorem Makings.sound (h : Makings scopes scope.main.asOwner context nodes above w grown made w') (hs : scope ∈ scopes)
    (hcontext : context ∈ scope.contexts) (hnodes : nodes = context.document.body.nodes
      ∨ ∃ augment ∈ context.document.body.augments, nodes = augment.nodes) : ∀ m ∈ made, m.Sound scopes := by
  intro m hm
  have hholds : context.document.Holds nodes := by
    rcases hnodes with rfl | ⟨augment, haugment, rfl⟩
    · exact .nodes
    · exact .augment haugment
  have hstems := h.stems m hm
  exact ⟨⟨scope, hs, ⟨context, hcontext, nodes, hstems, hnodes⟩, h.makes m hm⟩,
    hstems.stands ⟨scope, hs, hcontext⟩ hholds⟩

theorem addDocuments_makings (hc : scopes.Coherent) (hs : scope ∈ scopes) (hw : scopes.Reached w) (spot : Spot)
    {contexts : List Context} (hcontexts : ∀ context ∈ contexts, context ∈ scope.contexts) (children : List Entry)
    (above : List EntryHead) :
    ∃ (grown : List Entry) (made : List Making),
      (scopes.addDocuments spot scope.main.asOwner contexts children w).1 = children ++ grown
        ∧ made.map Making.visit = Entry.visitsAll above grown ∧ (∀ m ∈ made, m.Sound scopes)
        ∧ scopes.Tells w (scopes.addDocuments spot scope.main.asOwner contexts children w).2
          (made.filterMap scopes.complaintFor?) := by
  induction contexts generalizing children w with
  | nil => exact ⟨[], [], (List.append_nil _).symm, rfl, List.forall_mem_nil _, .refl scopes w⟩
  | cons context rest ih =>
    rw [List.forall_mem_cons] at hcontexts
    have hadds := adds_addNodes scopes scope.main.asOwner [] spot context context.document.body.nodes children w
    obtain ⟨grown, made, heq, hmade⟩ := hadds.makings hc hw above
    obtain ⟨more, others, hmore, hvisits, hsound, htells⟩ := ih (hadds.reached hw) hcontexts.2 _
    refine ⟨grown ++ more, made ++ others, ?_, ?_, ?_, ?_⟩
    · rw [← List.append_assoc, ← heq]
      exact hmore
    · rw [List.map_append, hmade.visits, hvisits, Entry.visitsAll_append]
    · exact List.forall_mem_append.2 ⟨hmade.sound hs hcontexts.1 (.inl rfl), hsound⟩
    · rw [List.filterMap_append]
      exact hmade.tells.trans htells

theorem tells_settle (hc : scopes.Coherent) (found : List (Located Typedef))
    (isThere : ∀ l ∈ found, l ∈ scopes.definitions Typedef) (hfound : ∀ l ∈ found, scopes.Holds l) :
    scopes.Tells w (scopes.settle found isThere w) []
      ∧ ∀ l ∈ found, (scopes.settle found isThere w).isSettled l = true := by
  induction found generalizing w with
  | nil => exact ⟨.refl scopes w, List.forall_mem_nil _⟩
  | cons l rest ih =>
    rw [List.forall_mem_cons] at hfound ⊢
    obtain ⟨hfirst, hsettled⟩ := tells_typeOfTypedef hc hfound.1 (isThere l List.mem_cons_self) (w := w)
    obtain ⟨hrest, hothers⟩ := ih (fun l h => isThere l (List.mem_cons_of_mem _ h)) hfound.2
      (w := (scopes.typeOfTypedef [] l (isThere l List.mem_cons_self) w).2)
    exact ⟨hfirst.trans hrest, hrest.kept l hsettled, hothers⟩

theorem build_composed (hc : scopes.Coherent) (hs : scope ∈ scopes) (hw : scopes.Reached w) :
    ∃ made, Composed scopes [(scopes.build scope hs w).1] made
      ∧ scopes.Tells w (scopes.build scope hs w).2 (made.filterMap scopes.complaintFor?)
      ∧ ∀ l ∈ scope.firsts Typedef, (scopes.build scope hs w).2.isSettled l = true := by
  obtain ⟨grown, made, heq, hvisits, hsound, htells⟩ :=
    addDocuments_makings hc hs hw ⟨scope.main.head, []⟩ (fun _ h => h) [] [scope.main.head]
  obtain ⟨hsettle, hsettled⟩ := tells_settle hc (scope.firsts Typedef)
    (fun _ h => mem_definitions_of_mem_firsts hs h) (fun _ h => hc.holds_of_mem_firsts hs h)
    (w := (scopes.addDocuments ⟨scope.main.head, []⟩ scope.main.asOwner scope.contexts [] w).2)
  refine ⟨made, ⟨?_, hsound⟩, ?_, hsettled⟩
  · unfold build
    dsimp only
    rw [heq, List.nil_append, Entry.visitsAll, Entry.visits, Entry.visitsAll, List.append_nil, ← hvisits]
    exact .refl _
  · have hall := htells.trans hsettle
    rw [List.append_nil] at hall
    exact hall

theorem Composed.append {forest forest' : Forest} {others : List Making} (h : Composed scopes forest made)
    (h' : Composed scopes forest' others) : Composed scopes (forest ++ forest') (made ++ others) where
  visits := by
    rw [List.map_append, List.map_append, Entry.visitsAll_append, List.append_assoc]
    refine (List.perm_append_comm_assoc _ _ _).append_left _ |>.trans ?_
    rw [← List.append_assoc]
    exact h.visits.append h'.visits
  sound := List.forall_mem_append.2 ⟨h.sound, h'.sound⟩

theorem buildAll_composed (hc : scopes.Coherent) (hw : scopes.Reached w) (list : List Scope)
    (isThere : ∀ scope ∈ list, scope ∈ scopes) :
    ∃ made, Composed scopes (scopes.buildAll list isThere w).1 made
      ∧ scopes.Tells w (scopes.buildAll list isThere w).2 (made.filterMap scopes.complaintFor?)
      ∧ ∀ scope ∈ list, ∀ l ∈ scope.firsts Typedef, (scopes.buildAll list isThere w).2.isSettled l = true := by
  induction list generalizing w with
  | nil => exact ⟨[], ⟨.refl _, List.forall_mem_nil _⟩, .refl scopes w, List.forall_mem_nil _⟩
  | cons scope rest ih =>
    have hs := isThere scope List.mem_cons_self
    obtain ⟨made, hcomposed, htells, hsettled⟩ := build_composed hc hs hw
    have hw₁ : scopes.Reached (scopes.build scope hs w).2 := (hw.addDocuments _ _ _).settleAll hs _ _ fun _ hl => hl
    obtain ⟨others, hcomposed', htells', hsettled'⟩ := ih hw₁ fun s h => isThere s (List.mem_cons_of_mem _ h)
    refine ⟨made ++ others, hcomposed.append hcomposed', ?_, ?_⟩
    · rw [List.filterMap_append]
      exact htells.trans htells'
    · rw [List.forall_mem_cons]
      exact ⟨fun l hl => htells'.kept l (hsettled l hl), hsettled'⟩

end

section

variable {scopes : Scopes} {graft : Graft} {forest forest' : Forest} {w w' : Work} {made : List Making}

theorem Composed.grafted (hc : scopes.Coherent) (hw : scopes.Reached w) (h : Composed scopes forest made)
    (hgraft : graft ∈ scopes.grafts) {entry : Entry} {children : List Entry} {target : Target}
    (htarget : scopes.target forest graft = .ok (some (entry, target)))
    (hadds : Adds scopes (scopes.ownerOf graft) [] (spotOf forest target) graft.context graft.augment.nodes
      entry.children (w.note (.augmenting graft.augment.target graft.context.document.name)) children w') :
    ∃ more, Composed scopes (Entry.regrowIn children target.module target.names forest) (made ++ more)
      ∧ scopes.Tells w w' (more.filterMap scopes.complaintFor?) := by
  obtain ⟨scope, hs, hcontext, haugment, howner⟩ := ownerOf_of_mem_grafts hc hgraft
  obtain ⟨tree, htree, hd⟩ := (target_eq_some_iff.1 htarget).path
  obtain ⟨above, hregrow⟩ := Entry.visitsAll_regrowIn htree hd []
  rw [howner] at hadds
  obtain ⟨grown, more, heq, hmade⟩ := hadds.makings hc (hw.note _) above
  refine ⟨more, ⟨?_, ?_⟩, (tells_note _).trans hmade.tells⟩
  · -- the roots stay what they are when an entry in their trees grows
    have hroots : (Entry.regrowIn (entry.children ++ grown) target.module target.names forest).map Entry.root
        = forest.map Entry.root := by
      have hheads := congrArg (List.map fun head => Entry.Visit.mk head [])
        (Entry.heads_regrowIn (entry.children ++ grown) target.module target.names forest)
      rw [List.map_map, List.map_map] at hheads
      exact hheads
    rw [heq, hroots, List.map_append, hmade.visits, ← List.append_assoc]
    exact (h.visits.append_right _).trans (hregrow grown).symm
  · exact List.forall_mem_append.2 ⟨h.sound, hmade.sound hs hcontext (.inr ⟨_, haugment, rfl⟩)⟩

theorem isAboutType_of_target {finding : Finding} (h : scopes.target forest graft = .error finding) :
    finding.isAboutType = false := by
  have htarget := isAboutTarget_of_target h
  cases finding <;> first | rfl | cases htarget

theorem Composed.decides (hc : scopes.Coherent) (hw : scopes.Reached w) (h : Composed scopes forest made)
    {decided : List (Graft × Verdict)} (hall : DecidesAll scopes forest w decided forest' w')
    (hgrafts : ∀ p ∈ decided, p.1 ∈ scopes.grafts) :
    ∃ more, Composed scopes forest' (made ++ more)
      ∧ scopes.Tells w w' (more.filterMap scopes.complaintFor?) := by
  induction hall generalizing made with
  | nil =>
    refine ⟨[], ?_, .refl _ _⟩
    rw [List.append_nil]
    exact h
  | @cons forest forest' forest'' w w' w'' graft verdict rest hstep _ ih =>
    rw [List.forall_mem_cons] at hgrafts
    have hw' := hstep.reached hw
    cases hstep with
    | grafted htarget hadds =>
      obtain ⟨more, hfirst, htells⟩ := h.grafted hc hw hgrafts.1 htarget (adds_of_addNodes hadds)
      obtain ⟨others, hrest, htells'⟩ := ih hw' hfirst hgrafts.2
      refine ⟨more ++ others, ?_, ?_⟩
      · rw [← List.append_assoc]
        exact hrest
      · rw [List.filterMap_append]
        exact htells.trans htells'
    | refused hrefused =>
      obtain ⟨others, hrest, htells⟩ := ih hw' h hgrafts.2
      exact ⟨others, hrest, (tells_report (isAboutType_of_target hrefused)).trans htells⟩
    | missing _ =>
      obtain ⟨others, hrest, htells⟩ := ih hw' h hgrafts.2
      exact ⟨others, hrest, (tells_report rfl).trans htells⟩

theorem accounts_forest (hc : scopes.Coherent) :
    ∃ recursions made, Composed scopes scopes.forest.1 made
      ∧ Accounts scopes scopes.forest.2 recursions (made.filterMap scopes.complaintFor?)
      ∧ ∀ l ∈ scopes.firsts Typedef, scopes.forest.2.isSettled l = true := by
  have isThere : ∀ scope ∈ scopes, scope ∈ scopes := fun _ h => h
  obtain ⟨made, hcomposed, htells, hsettled⟩ := buildAll_composed hc .empty scopes isThere
  have hw : scopes.Reached (scopes.buildAll scopes isThere .empty).2 := Reached.empty.buildAll _ _
  obtain ⟨decided, hperm, hall, _⟩ := scopes.decides_graftAll scopes.grafts
    (scopes.buildAll scopes isThere .empty).1 (scopes.buildAll scopes isThere .empty).2
  have hgrafts : ∀ p ∈ decided, p.1 ∈ scopes.grafts := fun p hp => hperm.mem_iff.1 (List.mem_map_of_mem hp)
  obtain ⟨more, hforest, htells'⟩ := hcomposed.decides hc hw hall hgrafts
  have hrun := htells.trans htells'
  obtain ⟨recursions, haccounts⟩ := hrun.accounts [] [] (accounts_empty scopes)
  rw [List.nil_append, ← List.filterMap_append] at haccounts
  refine ⟨recursions, made ++ more, hforest, haccounts, fun l hl => ?_⟩
  obtain ⟨scope, hs, hl⟩ := List.mem_flatMap.1 hl
  exact htells'.kept l (hsettled scope hs l hl)

theorem isAbout_of_isPreliminary {d : Diagnostic} (h : d.isPreliminary = true) :
    d.isAbout Finding.isAboutType = false := by
  obtain ⟨source, cause⟩ := d
  cases cause with
  | statement word name finding => cases finding <;> first | rfl | cases h
  | _ => rfl

theorem Accounts.diagnoses (hc : scopes.Coherent) {recursions : List (Located Typedef)}
    (h : Accounts scopes w recursions (made.filterMap scopes.complaintFor?))
    (hsettled : ∀ l ∈ scopes.firsts Typedef, w.isSettled l = true) (hcomposed : Composed scopes forest made)
    {gathered : List Diagnostic} (hgathered : ∀ d ∈ gathered, d.isPreliminary = true)
    (hunambiguous : gathered = [] → ∀ scope ∈ scopes, scope.Unambiguous) :
    Diagnoses scopes forest recursions made (gathered ++ w.problems) := by
  have hcycles : ∀ l ∈ scopes.firsts Typedef, scopes.Leads l l →
      ∃! r, r ∈ recursions ∧ scopes.Leads l r ∧ scopes.Leads r l :=
    fun l hl => h.existsUnique hc (hc.mem_firsts_iff.1 hl) (hsettled l hl)
  refine ⟨hc.nodup_keys, fun l hl => hc.exists_first hl, fun l k hrefers => ?_, h.nodup, fun r hr => ?_, hcycles,
    hcomposed, fun m hm => ?_, fun _ _ _ => hc.complaint?_eq_some_iff, ?_, fun hnil l hl => ?_⟩
  · exact ⟨hc.mem_firsts_iff.2 (hrefers.holds hc), fun other hother => hc.refers_unique hother hrefers⟩
  · obtain ⟨hholds, _, hloop⟩ := h.recursive r hr
    exact ⟨hc.mem_firsts_iff.2 hholds, hloop⟩
  · obtain ⟨_, _, _, hmakes⟩ := (hcomposed.sound m hm).made
    exact hmakes.isLeaf.symm
  · have hnone : gathered.filter (Diagnostic.isAbout Finding.isAboutType) = [] :=
      List.filter_eq_nil_iff.2 fun d hd => by
        rw [isAbout_of_isPreliminary (hgathered d hd)]
        exact Bool.false_ne_true
    have hproblems := h.problems
    rw [List.filter_eq_self.2 hsettled] at hproblems
    rw [List.filter_append, hnone]
    exact hproblems
  · -- where no name is double, every derived type is the first one of its name
    obtain ⟨hgathered, hproblems⟩ := List.append_eq_nil_iff.1 hnil
    obtain ⟨scope, hs, hl⟩ := List.mem_flatMap.1 hl
    have hfirst := Scope.mem_firsts_of_mem (hunambiguous hgathered scope hs) hl
    apply h.exists_way hc hsettled _ (hc.holds_of_mem_firsts hs hfirst)
    unfold Work.about
    rw [hproblems, List.filter_nil]

end

end Scopes

namespace ModuleSet

theorem isPreliminary_gather (store : Store) (files : Files) : (gather store files).2.IsPreliminary := by
  obtain ⟨_, _, hruns⟩ := gather_spec store files
  exact hruns.isPreliminary (List.forall_mem_nil _)

/--
When a set was processed, the problems with types are one for each cycle of derived types, one for each derived type
whose reference stands for nothing, and one for each entry whose own reference stands for nothing. So if there are no
problems, there is a way from every derived type to a built-in type.
-/
theorem process_diagnosed {store : Store} {files : Files} {problems : List Diagnostic}
    (hok : (process ⟨store, none⟩ files).1 = .ok problems) :
    ∃ forest recursions made, (process ⟨store, none⟩ files).2.outcome = some ⟨problems, forest⟩
      ∧ Scopes.Diagnoses (gather store files).1 forest recursions made problems := by
  rw [process_open] at hok ⊢
  split at hok
  · cases hok
  · cases hok
    have hc := (sound_gather store files).coherent
    obtain ⟨recursions, made, hcomposed, haccounts, hsettled⟩ := Scopes.accounts_forest hc
    exact ⟨_, recursions, made, rfl, haccounts.diagnoses hc hsettled hcomposed (isPreliminary_gather store files)
      unambiguous_gather⟩

def tangledType (name type : String) : Typedef :=
  ⟨.free, name, type, none, none, none⟩

def tangledModule : Module :=
  ⟨"m", "u", ⟨"p", none, none, none, none, [], [],
    [tangledType "a" "b", tangledType "b" "a", tangledType "c" "x"], [],
    [.leaf ⟨.free, "e", "y", none, none, false, none, none⟩], [], "m.yaml"⟩⟩

def tangledStore : Store :=
  ⟨[], [tangledModule], [], [], []⟩

def tangledContext : Context :=
  .first "m" (.main tangledModule)

def tangledScopes : Scopes :=
  [⟨tangledModule, [tangledContext]⟩]

theorem leads_tangled : tangledScopes.Leads ⟨tangledType "a" "b", tangledContext⟩
    ⟨tangledType "a" "b", tangledContext⟩ := by
  have hfirst : tangledScopes.Refers ⟨tangledType "a" "b", tangledContext⟩
      ⟨tangledType "b" "a", tangledContext⟩ :=
    ⟨by decide, _, List.mem_singleton_self _, rfl, rfl, [⟨tangledType "a" "b", tangledContext⟩], _, rfl,
      by decide⟩
  have hsecond : tangledScopes.Refers ⟨tangledType "b" "a", tangledContext⟩
      ⟨tangledType "a" "b", tangledContext⟩ :=
    ⟨by decide, _, List.mem_singleton_self _, rfl, rfl, [], _, rfl, List.forall_mem_nil _⟩
  exact .tail (.single hfirst) hsecond

theorem process_diagnosed_tangled : ∃ problems, (process ⟨tangledStore, none⟩ .empty).1 = .ok problems
    ∧ (∃ forest recursions made, (process ⟨tangledStore, none⟩ .empty).2.outcome = some ⟨problems, forest⟩
      ∧ Scopes.Diagnoses (gather tangledStore .empty).1 forest recursions made problems)
    ∧ (∃ l : Located Typedef, l.recursion ∈ problems)
    ∧ tangledContext.problem (.unknownName (Defined.kind Typedef) "x") ∈ problems := by
  have hgather := @gather_sole .empty tangledStore tangledModule rfl rfl rfl (by decide) List.nodup_nil
  have hok : (process ⟨tangledStore, none⟩ .empty).1 = .ok ([] ++ tangledScopes.forest.2.problems) := by
    rw [process_open, hgather]
    rfl
  obtain ⟨forest, recursions, made, houtcome, hdiagnoses⟩ := process_diagnosed hok
  refine ⟨_, hok, ⟨forest, recursions, made, houtcome, hdiagnoses⟩, ?_⟩
  rw [hgather] at hdiagnoses
  have hmem : ∀ d ∈ recursions.map Located.recursion
      ++ ((tangledScopes.firsts Typedef).filterMap tangledScopes.complaintOf?
        ++ made.filterMap tangledScopes.complaintFor?), d ∈ [] ++ tangledScopes.forest.2.problems :=
    fun d hd => (List.mem_filter.1 (hdiagnoses.reported.mem_iff.2 hd)).1
  have hfirst : ⟨tangledType "a" "b", tangledContext⟩ ∈ tangledScopes.firsts Typedef := List.mem_cons_self
  obtain ⟨r, ⟨hr, _⟩, _⟩ := hdiagnoses.cycles _ hfirst leads_tangled
  refine ⟨⟨r, hmem _ (List.mem_append_left _ (List.mem_map_of_mem hr))⟩, hmem _ ?_⟩
  apply List.mem_append_right
  apply List.mem_append_left
  decide

end ModuleSet

end Yang

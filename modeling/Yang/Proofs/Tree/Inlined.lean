import Yang.Proofs.Schema.Inlined
import Yang.Proofs.Tree.Alike

/-!
This module contains what becomes of trees when references to a grouping of the own document are replaced by the nodes
of the grouping: nothing, as long as the grouping does not come back to itself. The one difference between the two runs
is that one of them is inside of the grouping and the other one is not, and nothing that is reached from there asks for
that.
-/

namespace Yang

namespace Scopes

inductive Reaches (scopes : Scopes) : Context → List Node → Located Grouping → Prop
  | here {context : Context} {head : Uses} {rest : List Node} {found : Located Grouping}
    (h : scopes.resolve context head.grouping = .ok found) : Reaches scopes context (.uses head :: rest) found
  | through {context : Context} {head : Uses} {rest : List Node} {next found : Located Grouping}
    (h : scopes.resolve context head.grouping = .ok next)
    (hnext : Reaches scopes next.context next.definition.nodes found) :
    Reaches scopes context (.uses head :: rest) found
  | inner {context : Context} {node : Node} {rest : List Node} {found : Located Grouping}
    (h : Reaches scopes context node.children found) : Reaches scopes context (node :: rest) found
  | later {context : Context} {node : Node} {rest : List Node} {found : Located Grouping}
    (h : Reaches scopes context rest found) : Reaches scopes context (node :: rest) found

/--
Whether a reference to a grouping, wherever it stands in a document, stands for a grouping of that same document that
does not reach itself.
-/
def Expandable (scopes : Scopes) (document : Document) (head : Uses) (grouping : Grouping) : Prop :=
  ∀ context, scopes.Shows context → context.document = document →
    scopes.resolve context head.grouping = .ok ⟨grouping, context⟩
      ∧ ¬ scopes.Reaches context grouping.nodes ⟨grouping, context⟩

variable {scopes scopes' : Scopes}

theorem Reaches.holds (hc : scopes.Coherent) {context : Context} {nodes : List Node} {found : Located Grouping}
    (h : scopes.Reaches context nodes found) : scopes.Holds found := by
  induction h with
  | here h => exact hc.holds_of_resolve h
  | through _ _ ih => exact ih
  | inner _ ih => exact ih
  | later _ ih => exact ih

theorem Adds.append {owner : Owner} {inside : List DefinitionKey} {spot : Spot} {context : Context}
    {nodes more : List Node} {children children₁ children' : List Entry} {w w₁ w' : Work}
    (h : Adds scopes owner inside spot context nodes children w children₁ w₁)
    (hmore : Adds scopes owner inside spot context more children₁ w₁ children' w') :
    Adds scopes owner inside spot context (nodes ++ more) children w children' w' := by
  induction h with
  | nil => exact hmore
  | unresolved h _ ih => exact .unresolved h (ih hmore)
  | recursive h hin _ ih => exact .recursive h hin (ih hmore)
  | expanded h hout hinner _ _ ih => exact .expanded h hout hinner (ih hmore)
  | misplaced hkind h _ ih => exact .misplaced hkind h (ih hmore)
  | placed hkind h hhead hinner _ _ ih => exact .placed hkind h hhead hinner (ih hmore)

end Scopes

def OnlyIn {α : Type} (old : Document) (p : α → α → Prop) (d : Document) (a b : α) : Prop :=
  a = b ∨ d = old ∧ p a b

theorem OnlyIn.map {α β : Type} {old d : Document} {p : α → α → Prop} {q : β → β → Prop} {a b : α} (f : α → β)
    (hf : p a b → q (f a) (f b)) (h : OnlyIn old p d a b) : OnlyIn old q d (f a) (f b) := by
  rcases h with rfl | ⟨hd, h⟩
  · exact .inl rfl
  · exact .inr ⟨hd, hf h⟩

namespace Document

variable {head : Uses} {given : List Node} {old new d d' : Document}

theorem Replaced.forall₂ {α : Type} (all : Document → List α) {p : α → α → Prop}
    (h : List.Forall₂ p (all old) (all new)) (hr : Replaced old new d d') :
    List.Forall₂ (OnlyIn old p d) (all d) (all d') := by
  rcases hr with rfl | ⟨rfl, rfl⟩
  · exact List.forall₂_same.2 fun _ _ => .inl rfl
  · exact h.imp fun _ _ hab => .inr ⟨rfl, hab⟩

theorem corresponds_typedefs (h : old.Inlined head given new) :
    Corresponds Typedef (fun _ => Eq) (Replaced old new) where
  name := fun hab => by rw [hab]
  all := by
    intro d d' hr
    rw [List.forall₂_eq_eq_eq]
    exact (hr.inlined h).typedefs

theorem corresponds_groupings (h : old.Inlined head given new) :
    Corresponds Grouping (OnlyIn old (Grouping.Inlined head given)) (Replaced old new) where
  name := by
    rintro d a b (rfl | ⟨_, hab⟩)
    · rfl
    · exact hab.name
  all := fun hr => hr.forall₂ (fun d => d.body.groupings) h.groupings

end Document

theorem Node.onlyIn_cons {head : Uses} {given : List Node} {old d : Document} {node : Node}
    {rest nodes' : List Node} (h : OnlyIn old (Inlined head given) d (node :: rest) nodes') :
    (∃ node' rest', nodes' = node' :: rest' ∧ node.bare = node'.bare
        ∧ OnlyIn old (Inlined head given) d node.children node'.children
        ∧ OnlyIn old (Inlined head given) d rest rest')
      ∨ ∃ rest', node = .uses head ∧ d = old ∧ nodes' = given ++ rest'
        ∧ OnlyIn old (Inlined head given) d rest rest' := by
  rcases h with rfl | ⟨hd, h⟩
  · exact .inl ⟨node, rest, rfl, rfl, .inl rfl, .inl rfl⟩
  · cases h with
    | cons hbare hchildren hrest => exact .inl ⟨_, _, rfl, hbare, .inr ⟨hd, hchildren⟩, .inr ⟨hd, hrest⟩⟩
    | uses hrest => exact .inr ⟨_, rfl, hd, rfl, .inr ⟨hd, hrest⟩⟩

namespace Scopes

variable {scopes scopes' : Scopes}

structure Inlined (head : Uses) (grouping : Grouping) (old new : Document) (scopes scopes' : Scopes) : Prop where
  coherent : scopes.Coherent
  alike : List.Forall₂ (Scope.Alike (Document.Replaced old new)) scopes scopes'
  document : old.Inlined head grouping.nodes new
  expandable : scopes.Expandable old head grouping

/--
Whether being inside of some definitions makes no other difference to nodes than being inside of others does, and none
to the groupings whose nodes take the place of references.
-/
structure Indifferent (old : Document) (grouping : Grouping) (scopes : Scopes) (inside inside' : List DefinitionKey)
    (context : Context) (nodes : List Node) : Prop where
  same : ∀ found, scopes.Reaches context nodes found → inside.contains found.key = inside'.contains found.key
  outside : ∀ place, scopes.Shows place → place.document = old →
    scopes.Reaches context nodes ⟨grouping, place⟩ → inside.contains (Located.mk grouping place).key = false

section

variable {head head' : Uses} {grouping : Grouping} {old new : Document} {inside inside' : List DefinitionKey}
  {context : Context} {node : Node} {rest : List Node} {found : Located Grouping}

theorem Indifferent.inner (h : Indifferent old grouping scopes inside inside' context (node :: rest)) :
    Indifferent old grouping scopes inside inside' context node.children where
  same := fun found hreaches => h.same found hreaches.inner
  outside := fun place hshows hold hreaches => h.outside place hshows hold hreaches.inner

theorem Indifferent.later (h : Indifferent old grouping scopes inside inside' context (node :: rest)) :
    Indifferent old grouping scopes inside inside' context rest where
  same := fun found hreaches => h.same found hreaches.later
  outside := fun place hshows hold hreaches => h.outside place hshows hold hreaches.later

theorem Expandable.key_ne (hc : scopes.Coherent) (he : scopes.Expandable old head grouping)
    (hshows : scopes.Shows context) (hold : context.document = old)
    (hreaches : scopes.Reaches context grouping.nodes found) : found.key ≠ (Located.mk grouping context).key := by
  intro heq
  obtain ⟨hresolve, hnot⟩ := he context hshows hold
  have hsame : found = ⟨grouping, context⟩ := (hreaches.holds hc).eq_of_key_eq (hc.holds_of_resolve hresolve) heq
  rw [hsame] at hreaches
  exact hnot hreaches

theorem Indifferent.enter (hc : scopes.Coherent) (he : scopes.Expandable old head grouping)
    (h : Indifferent old grouping scopes inside inside' context (.uses head' :: rest))
    (hfound : scopes.resolve context head'.grouping = .ok found) :
    Indifferent old grouping scopes (found.key :: inside) (found.key :: inside') found.context
      found.definition.nodes where
  same := by
    intro next hreaches
    rw [List.contains_cons, List.contains_cons, h.same next (.through hfound hreaches)]
  outside := by
    intro place hshows hold hreaches
    rw [List.contains_cons, h.outside place hshows hold (.through hfound hreaches), Bool.or_false,
      beq_eq_false_iff_ne]
    intro heq
    have hsame : Located.mk grouping place = found :=
      (hreaches.holds hc).eq_of_key_eq (hc.holds_of_resolve hfound) heq
    subst hsame
    exact (he place hshows hold).2 hreaches

theorem Indifferent.expand (hc : scopes.Coherent) (he : scopes.Expandable old head grouping)
    (hshows : scopes.Shows context) (hold : context.document = old)
    (h : Indifferent old grouping scopes inside inside' context (.uses head :: rest)) :
    Indifferent old grouping scopes ((Located.mk grouping context).key :: inside) inside' context grouping.nodes where
  same := by
    intro found hreaches
    have hne := he.key_ne hc hshows hold hreaches
    rw [List.contains_cons, beq_eq_false_iff_ne.2 hne, Bool.false_or]
    exact h.same found (.through (he context hshows hold).1 hreaches)
  outside := by
    intro place hshows' hold' hreaches
    have hne := he.key_ne hc hshows hold hreaches
    rw [List.contains_cons, beq_eq_false_iff_ne.2 hne, Bool.false_or]
    exact h.outside place hshows' hold' (.through (he context hshows hold).1 hreaches)

end

variable {head : Uses} {grouping : Grouping} {old new : Document} {owner : Owner}

section

variable (h : scopes.Inlined head grouping old new scopes') {context context' : Context}
  (hcontext : context.Alike (Document.Replaced old new) context') {text : String}

include h hcontext

theorem Inlined.resolve_eq_error {finding : Finding}
    (hresolve : (scopes.resolve context text : Except Finding (Located Grouping)) = .error finding) :
    (scopes'.resolve context' text : Except Finding (Located Grouping)) = .error finding := by
  have hl := Document.likeness_replaced h.document
  have hq := Document.corresponds_groupings h.document
  rcases resolve_alike hl hq h.alike hcontext text with ⟨_, hf, hf'⟩ | ⟨_, _, hf, _⟩
  · rw [hresolve] at hf
    cases hf
    exact hf'
  · rw [hresolve] at hf
    cases hf

theorem Inlined.resolve_eq_ok {found : Located Grouping} (hresolve : scopes.resolve context text = .ok found) :
    ∃ found' : Located Grouping, scopes'.resolve context' text = .ok found' ∧ found.key = found'.key
      ∧ found.definition.name = found'.definition.name
      ∧ OnlyIn old (Node.Inlined head grouping.nodes) found.context.document found.definition.nodes
        found'.definition.nodes
      ∧ found.context.Alike (Document.Replaced old new) found'.context := by
  have hl := Document.likeness_replaced h.document
  have hq := Document.corresponds_groupings h.document
  rcases resolve_alike hl hq h.alike hcontext text with ⟨_, hf, _⟩ | ⟨_, found', hf, hf', hfound⟩
  · rw [hresolve] at hf
    cases hf
  · rw [hresolve] at hf
    cases hf
    have hnodes := hfound.definition.map Grouping.nodes Grouping.Inlined.nodes
    exact ⟨found', hf', hfound.key_eq hq, hq.name hfound.definition, hnodes, hfound.context⟩

end

theorem Adds.inlined (h : scopes.Inlined head grouping old new scopes') {inside : List DefinitionKey} {spot : Spot}
    {context : Context} {nodes : List Node} {children children' : List Entry} {w w' : Work}
    (hadds : Adds scopes owner inside spot context nodes children w children' w')
    {inside' : List DefinitionKey} {context' : Context} {nodes' : List Node} (hshows : scopes.Shows context)
    (hcontext : context.Alike (Document.Replaced old new) context')
    (hnodes : OnlyIn old (Node.Inlined head grouping.nodes) context.document nodes nodes')
    (hinside : Indifferent old grouping scopes inside inside' context nodes) :
    Adds scopes' owner inside' spot context' nodes' children w children' w' := by
  have hl := Document.likeness_replaced h.document
  have ht := Document.corresponds_typedefs h.document
  induction hadds generalizing inside' context' nodes' with
  | nil =>
    rcases hnodes with rfl | ⟨_, hnil⟩
    · exact .nil
    · cases hnil
      exact .nil
  | unresolved hresolve _ ih =>
    rcases Node.onlyIn_cons hnodes with ⟨node', rest', rfl, hbare, _, hrest⟩ | ⟨rest', hhead, hold, _, _⟩
    · cases Node.bare_eq_of_kind_eq_uses hbare
      have hmore := ih hshows hcontext hrest hinside.later
      rw [hcontext.report_eq hl] at hmore
      exact .unresolved (h.resolve_eq_error hcontext hresolve) hmore
    · cases hhead
      rw [(h.expandable _ hshows hold).1] at hresolve
      cases hresolve
  | recursive hresolve hin _ ih =>
    rcases Node.onlyIn_cons hnodes with ⟨node', rest', rfl, hbare, _, hrest⟩ | ⟨rest', hhead, hold, _, _⟩
    · cases Node.bare_eq_of_kind_eq_uses hbare
      obtain ⟨found', hresolve', hkey, hname, _, _⟩ := h.resolve_eq_ok hcontext hresolve
      have hmore := ih hshows hcontext hrest hinside.later
      rw [hcontext.report_eq hl, hname] at hmore
      rw [hinside.same _ (.here hresolve), hkey] at hin
      exact .recursive hresolve' hin hmore
    · -- the grouping would be reached from inside of itself
      cases hhead
      have hself := (h.expandable _ hshows hold).1
      have hout := hinside.outside _ hshows hold (.here hself)
      rw [hself] at hresolve
      cases hresolve
      rw [hout] at hin
      cases hin
  | expanded hresolve hout _ _ ihinner ihmore =>
    rcases Node.onlyIn_cons hnodes with ⟨node', rest', rfl, hbare, _, hrest⟩ | ⟨rest', hhead, hold, rfl, hrest⟩
    · cases Node.bare_eq_of_kind_eq_uses hbare
      obtain ⟨found', hresolve', hkey, _, hbody, hfound⟩ := h.resolve_eq_ok hcontext hresolve
      have henter := hinside.enter h.coherent h.expandable hresolve
      have hinner := ihinner (shows_of_resolve hresolve) hfound hbody henter
      rw [hinside.same _ (.here hresolve), hkey] at hout
      rw [hkey] at hinner
      exact .expanded hresolve' hout hinner (ihmore hshows hcontext hrest hinside.later)
    · -- the nodes of the grouping are the same in both runs, but only the first run is inside of it
      cases hhead
      have hexpand := hinside.expand h.coherent h.expandable hshows hold
      rw [(h.expandable _ hshows hold).1] at hresolve
      cases hresolve
      exact (ihinner hshows hcontext (.inl rfl) hexpand).append (ihmore hshows hcontext hrest hinside.later)
  | misplaced hkind hplace _ ih =>
    rcases Node.onlyIn_cons hnodes with ⟨node', rest', rfl, hbare, _, hrest⟩ | ⟨_, rfl, _, _, _⟩
    · have hmore := ih hshows hcontext hrest hinside.later
      rw [hcontext.report_eq hl] at hmore
      rw [← Node.kind_bare, hbare, Node.kind_bare] at hkind
      rw [← Node.misplaced?_bare, hbare, Node.misplaced?_bare] at hplace
      exact .misplaced hkind hplace hmore
    · exact (hkind rfl).elim
  | placed hkind hplace hhead _ _ ihinner ihmore =>
    rcases Node.onlyIn_cons hnodes with ⟨node', rest', rfl, hbare, hchildren, hrest⟩ | ⟨_, rfl, _, _, _⟩
    · have hmore := ihmore hshows hcontext hrest hinside.later
      rw [hcontext.reportAll_eq hl, ← Node.findings_bare, hbare, Node.findings_bare] at hmore
      rw [makeHead_alike hl ht h.alike hcontext hbare] at hhead
      rw [← Node.kind_bare, hbare, Node.kind_bare] at hkind
      rw [← Node.misplaced?_bare, hbare, Node.misplaced?_bare] at hplace
      exact .placed hkind hplace hhead (ihinner hshows hcontext hchildren hinside.inner) hmore
    · exact (hkind rfl).elim

theorem indifferent_nil (old : Document) (grouping : Grouping) (scopes : Scopes) (context : Context)
    (nodes : List Node) : Indifferent old grouping scopes [] [] context nodes :=
  ⟨fun _ _ => rfl, fun _ _ _ _ => rfl⟩

section

variable (h : scopes.Inlined head grouping old new scopes')

include h

theorem Inlined.addNodes {context context' : Context} (hshows : scopes.Shows context)
    (hcontext : context.Alike (Document.Replaced old new) context') {nodes nodes' : List Node}
    (hnodes : OnlyIn old (Node.Inlined head grouping.nodes) context.document nodes nodes') (spot : Spot)
    (owner : Owner) (children : List Entry) (w : Work) :
    scopes.addNodes [] spot context owner nodes children w
      = scopes'.addNodes [] spot context' owner nodes' children w := by
  have hadds := adds_addNodes scopes owner [] spot context nodes children w
  have hadds' := hadds.inlined h hshows hcontext hnodes (indifferent_nil _ _ _ _ _)
  exact hadds'.eq_addNodes.symm

theorem Inlined.addDocuments {contexts contexts' : List Context} (hshows : ∀ context ∈ contexts, scopes.Shows context)
    (hcontexts : List.Forall₂ (Context.Alike (Document.Replaced old new)) contexts contexts') (spot : Spot)
    (owner : Owner) (children : List Entry) (w : Work) :
    scopes.addDocuments spot owner contexts children w = scopes'.addDocuments spot owner contexts' children w := by
  induction hcontexts generalizing children w with
  | nil => rfl
  | @cons context context' _ _ hcontext _ ih =>
    rw [List.forall_mem_cons] at hshows
    have hnodes : OnlyIn old (Node.Inlined head grouping.nodes) context.document context.document.body.nodes
        context'.document.body.nodes := by
      rcases hcontext.document with heq | ⟨hold, hnew⟩
      · exact .inl (by rw [heq])
      · refine .inr ⟨hold, ?_⟩
        rw [hold, hnew]
        exact h.document.nodes
    unfold Scopes.addDocuments
    dsimp only
    rw [h.addNodes hshows.1 hcontext hnodes, ih hshows.2]

theorem Inlined.build {scope scope' : Scope} (hscope : scope.Alike (Document.Replaced old new) scope')
    (isThere : scope ∈ scopes) (isThere' : scope' ∈ scopes') (w : Work) :
    scopes.build scope isThere w = scopes'.build scope' isThere' w := by
  have hl := Document.likeness_replaced h.document
  have ht := Document.corresponds_typedefs h.document
  obtain ⟨howner, hhead⟩ := hscope.main_eq hl
  have hshows : ∀ context ∈ scope.contexts, scopes.Shows context := fun context hc => ⟨scope, isThere, hc⟩
  unfold Scopes.build
  dsimp only
  rw [← howner, ← hhead, h.addDocuments hshows hscope.contexts,
    settle_alike hl ht h.alike (hscope.firsts ht) _ fun _ hmem => mem_definitions_of_mem_firsts isThere' hmem]

theorem Inlined.buildAll {list list' : List Scope}
    (hlist : List.Forall₂ (Scope.Alike (Document.Replaced old new)) list list')
    (isThere : ∀ scope ∈ list, scope ∈ scopes) (isThere' : ∀ scope ∈ list', scope ∈ scopes') (w : Work) :
    scopes.buildAll list isThere w = scopes'.buildAll list' isThere' w := by
  induction hlist generalizing w with
  | nil => rfl
  | cons hscope _ ih =>
    unfold Scopes.buildAll
    dsimp only
    rw [h.build hscope (isThere _ List.mem_cons_self) (isThere' _ List.mem_cons_self), ih]

end

structure GraftInlined (head : Uses) (grouping : Grouping) (old new : Document) (scopes : Scopes)
    (graft graft' : Graft) : Prop where
  shows : scopes.Shows graft.context
  context : graft.context.Alike (Document.Replaced old new) graft'.context
  augment : OnlyIn old (Augment.Inlined head grouping.nodes) graft.context.document graft.augment graft'.augment

theorem GraftInlined.alike {graft graft' : Graft} (hg : GraftInlined head grouping old new scopes graft graft') :
    graft.Alike (Document.Replaced old new) graft' where
  context := hg.context
  target := by
    rcases hg.augment with heq | ⟨_, haugment⟩
    · rw [heq]
    · exact haugment.target

section

variable (h : scopes.Inlined head grouping old new scopes')

include h

theorem Inlined.grafts : List.Forall₂ (GraftInlined head grouping old new scopes) scopes.grafts scopes'.grafts := by
  have hscopes : List.Forall₂ (fun scope scope' => scope ∈ scopes ∧ scope.Alike (Document.Replaced old new) scope')
      scopes scopes' := List.forall₂_and_left _ _ |>.2 ⟨fun _ hs => hs, h.alike⟩
  unfold Scopes.grafts
  apply List.rel_flatMap hscopes
  rintro scope scope' ⟨hs, hscope⟩
  have hcontexts : List.Forall₂ (fun context context' => context ∈ scope.contexts
      ∧ context.Alike (Document.Replaced old new) context') scope.contexts scope'.contexts :=
    List.forall₂_and_left _ _ |>.2 ⟨fun _ hc => hc, hscope.contexts⟩
  apply List.rel_flatMap hcontexts
  rintro context context' ⟨hc, hcontext⟩
  rw [List.forall₂_map_left_iff, List.forall₂_map_right_iff]
  have haugments := hcontext.document.forall₂ (fun d => d.body.augments) h.document.augments
  exact haugments.imp fun _ _ haugment => ⟨⟨scope, hs, hc⟩, hcontext, haugment⟩

theorem Inlined.apply {graft graft' : Graft} (hg : GraftInlined head grouping old new scopes graft graft')
    (forest : Forest) (entry : Entry) (target : Target) (w : Work) :
    scopes.apply forest graft entry target w = scopes'.apply forest graft' entry target w := by
  have hl := Document.likeness_replaced h.document
  have hnodes := hg.augment.map Augment.nodes Augment.Inlined.nodes
  have hname : graft.context.document.name = graft'.context.document.name :=
    Document.name_eq (hl.outline hg.context.document)
  rw [apply_eq, apply_eq]
  dsimp only
  rw [← ownerOf_alike hl h.alike hg.alike, hg.alike.target, hname, h.addNodes hg.shows hg.context hnodes]

theorem Inlined.round {grafts grafts' : List Graft}
    (hg : List.Forall₂ (GraftInlined head grouping old new scopes) grafts grafts') (forest : Forest) (w : Work) :
    List.Forall₂ (GraftInlined head grouping old new scopes) (scopes.round grafts forest w).1
        (scopes'.round grafts' forest w).1
      ∧ (scopes.round grafts forest w).2 = (scopes'.round grafts' forest w).2 := by
  have hl := Document.likeness_replaced h.document
  induction hg generalizing forest w with
  | nil => exact ⟨.nil, rfl⟩
  | cons hgraft _ ih =>
    unfold Scopes.round
    rw [target_alike hl h.alike hgraft.alike]
    split
    · rw [hgraft.context.report_eq hl]
      exact ih _ _
    · obtain ⟨hwaiting, heq⟩ := ih forest w
      exact ⟨.cons hgraft hwaiting, heq⟩
    · rw [h.apply hgraft]
      exact ih _ _

theorem Inlined.reportWaiting {waiting waiting' : List Graft}
    (hg : List.Forall₂ (GraftInlined head grouping old new scopes) waiting waiting') (w : Work) :
    waiting.foldl (fun w g => w.report g.context (.targetNotFound g.augment.target)) w
      = waiting'.foldl (fun w g => w.report g.context (.targetNotFound g.augment.target)) w := by
  induction hg generalizing w with
  | nil => rfl
  | cons hgraft _ ih =>
    rw [List.foldl_cons, List.foldl_cons, hgraft.context.report_eq (Document.likeness_replaced h.document),
      hgraft.alike.target, ih]

theorem Inlined.graftAll {grafts grafts' : List Graft}
    (hg : List.Forall₂ (GraftInlined head grouping old new scopes) grafts grafts') (forest : Forest) (w : Work) :
    scopes.graftAll grafts forest w = scopes'.graftAll grafts' forest w := by
  induction hn : grafts.length using Nat.strongRecOn generalizing grafts grafts' forest w with
  | ind n ih =>
    obtain ⟨hwaiting, heq⟩ := h.round hg forest w
    rw [Scopes.graftAll.eq_1 scopes, Scopes.graftAll.eq_1 scopes', ← heq, ← hg.length_eq, ← hwaiting.length_eq]
    split
    · next hlt =>
      rw [hn] at hlt
      exact ih _ hlt hwaiting _ _ rfl
    · rw [h.reportWaiting hwaiting]

theorem Inlined.forest : scopes.forest = scopes'.forest := by
  unfold Scopes.forest
  dsimp only
  rw [h.buildAll h.alike _ fun _ hs => hs]
  exact h.graftAll h.grafts _ _

end

end Scopes

end Yang

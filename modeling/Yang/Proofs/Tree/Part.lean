import Yang.Proofs.Entry.Regrow
import Yang.Proofs.Tree.Adds
import Yang.Proofs.Tree.Grafted
import Yang.Proofs.Typing.Part

/-!
This module contains the trees of a part of scopes, built on their own and together with everything else. Whatever else
there is, the nodes of the part make the same entries, the same problems are found in them, and the augments of the part
find the same targets.
-/

namespace Yang

namespace Scopes

variable {part whole : Scopes} {w v w' : Work} {context : Context} {owner : Owner} {inside : List DefinitionKey}
  {spot : Spot} {children children' : List Entry} {nodes : List Node}

section

variable (h : part.Part whole) (hc : part.Coherent)

include h hc

theorem makeHead_part (hshows : part.Shows context) (hagrees : w.Agrees part v) (spot : Spot) (owner : Owner)
    (node : Node) :
    Work.Yields part w v (part.makeHead spot context owner node w) (whole.makeHead spot context owner node v) := by
  unfold Scopes.makeHead
  dsimp only
  -- a node that must not be writable is reported first
  have hreport : Work.Together part w v
      (if node.config = some true ∧ spot.head.config = false then
        w.report context (.writableUnderState node.kind node.name) else w)
      (if node.config = some true ∧ spot.head.config = false then
        v.report context (.writableUnderState node.kind node.name) else v) := by
    split
    · exact .report part w v context _
    · exact .refl part w v
  generalize (if node.config = some true ∧ spot.head.config = false then
    w.report context (.writableUnderState node.kind node.name) else w) = w₁ at hreport ⊢
  generalize (if node.config = some true ∧ spot.head.config = false then
    v.report context (.writableUnderState node.kind node.name) else v) = v₁ at hreport ⊢
  split
  · next reference declared _ =>
    obtain ⟨hsame, htogether⟩ :=
      (typing_part h hc (hagrees.together hreport)).1 [] context reference declared hshows
    exact ⟨by rw [hsame], hreport.trans htogether⟩
  · exact ⟨rfl, hreport⟩

theorem Adds.in_whole (hadds : Adds part owner inside spot context nodes children w children' w')
    (hshows : part.Shows context) (hagrees : w.Agrees part v) :
    ∃ v', Adds whole owner inside spot context nodes children v children' v' ∧ Work.Together part w v w' v' := by
  induction hadds generalizing v with
  | nil => exact ⟨v, .nil, .refl part _ v⟩
  | @unresolved _ _ context _ _ _ w _ _ finding hresolve _ ih =>
    have hreport := Work.Together.report part w v context finding
    obtain ⟨v', hmore, htogether⟩ := ih hshows (hagrees.together hreport)
    exact ⟨v', .unresolved ((h.resolve hshows _).trans hresolve) hmore, hreport.trans htogether⟩
  | @recursive _ _ context _ _ _ w _ _ found hresolve hin _ ih =>
    have hreport := Work.Together.report part w v context (.recursive .grouping found.definition.name)
    obtain ⟨v', hmore, htogether⟩ := ih hshows (hagrees.together hreport)
    exact ⟨v', .recursive ((h.resolve hshows _).trans hresolve) hin hmore, hreport.trans htogether⟩
  | expanded hresolve hout _ _ ihinner ihmore =>
    obtain ⟨v₁, hinner, htogether⟩ := ihinner (shows_of_resolve hresolve) hagrees
    obtain ⟨v', hmore, htogether'⟩ := ihmore hshows (hagrees.together htogether)
    exact ⟨v', .expanded ((h.resolve hshows _).trans hresolve) hout hinner hmore, htogether.trans htogether'⟩
  | @misplaced _ _ context _ _ _ w _ _ finding hkind hplace _ ih =>
    have hreport := Work.Together.report part w v context finding
    obtain ⟨v', hmore, htogether⟩ := ih hshows (hagrees.together hreport)
    exact ⟨v', .misplaced hkind hplace hmore, hreport.trans htogether⟩
  | @placed _ spot context node _ _ w head w₁ inner w₂ _ _ hkind hplace hhead _ _ ihinner ihmore =>
    obtain ⟨hsame, htogether⟩ := makeHead_part h hc hshows hagrees spot owner node
    rw [hhead] at hsame htogether
    have hhead' : whole.makeHead spot context owner node v = (head, (whole.makeHead spot context owner node v).2) :=
      Prod.ext hsame rfl
    obtain ⟨v₂, hinner, htogether₂⟩ := ihinner hshows (hagrees.together htogether)
    have hthus := htogether.trans htogether₂
    have hreport := Work.Together.reportAll part w₂ v₂ context (node.findings head inner)
    obtain ⟨v', hmore, htogether'⟩ := ihmore hshows (hagrees.together (hthus.trans hreport))
    exact ⟨v', .placed hkind hplace hhead' hinner hmore, (hthus.trans hreport).trans htogether'⟩

theorem addNodes_part (hshows : part.Shows context) (hagrees : w.Agrees part v) (inside : List DefinitionKey)
    (spot : Spot) (owner : Owner) (nodes : List Node) (children : List Entry) :
    Work.Yields part w v (part.addNodes inside spot context owner nodes children w)
      (whole.addNodes inside spot context owner nodes children v) := by
  obtain ⟨v', hadds, htogether⟩ :=
    (adds_addNodes part owner inside spot context nodes children w).in_whole h hc hshows hagrees
  rw [hadds.eq_addNodes]
  exact ⟨rfl, htogether⟩

theorem addDocuments_part {contexts : List Context} (hshows : ∀ context ∈ contexts, part.Shows context)
    (hagrees : w.Agrees part v) (spot : Spot) (owner : Owner) (children : List Entry) :
    Work.Yields part w v (part.addDocuments spot owner contexts children w)
      (whole.addDocuments spot owner contexts children v) := by
  induction contexts generalizing children w v with
  | nil => exact ⟨rfl, .refl part w v⟩
  | cons context rest ih =>
    rw [List.forall_mem_cons] at hshows
    unfold Scopes.addDocuments
    dsimp only
    obtain ⟨hsame, htogether⟩ := addNodes_part h hc hshows.1 hagrees [] spot owner context.document.body.nodes children
    rw [hsame]
    obtain ⟨hsame', htogether'⟩ := ih hshows.2 (hagrees.together htogether) (part.addNodes [] spot context owner
      context.document.body.nodes children w).1
    exact ⟨hsame', htogether.trans htogether'⟩

theorem settle_part {found : List (Located Typedef)} (isThere : ∀ l ∈ found, l ∈ part.definitions Typedef)
    (isThere' : ∀ l ∈ found, l ∈ whole.definitions Typedef)
    (hown : ∀ l ∈ found, part.Shows l.context ∧ (part.scope? l.context.owner).isSome = true)
    (hagrees : w.Agrees part v) :
    Work.Together part w v (part.settle found isThere w) (whole.settle found isThere' v) := by
  induction found generalizing w v with
  | nil => exact .refl part w v
  | cons l rest ih =>
    rw [List.forall_mem_cons] at hown
    unfold Scopes.settle
    dsimp only
    obtain ⟨_, htogether⟩ := (typing_part h hc hagrees).2 [] l (isThere l List.mem_cons_self)
      (isThere' l List.mem_cons_self) hown.1.1 hown.1.2
    exact htogether.trans (ih _ _ hown.2 (hagrees.together htogether))

theorem build_part {scope : Scope} (isThere : scope ∈ part) (isThere' : scope ∈ whole) (hagrees : w.Agrees part v) :
    Work.Yields part w v (part.build scope isThere w) (whole.build scope isThere' v) := by
  unfold Scopes.build
  dsimp only
  have hshows : ∀ context ∈ scope.contexts, part.Shows context := fun context hcontext => ⟨scope, isThere, hcontext⟩
  obtain ⟨hsame, htogether⟩ :=
    addDocuments_part h hc hshows hagrees ⟨scope.main.head, []⟩ scope.main.asOwner []
  refine ⟨by rw [hsame], htogether.trans (settle_part h hc _ _ ?_ (hagrees.together htogether))⟩
  intro l hl
  have hmem := mem_contexts_of_mem_definitions (Scope.mem_definitions_of_mem_firsts hl)
  refine ⟨⟨scope, isThere, hmem⟩, ?_⟩
  rw [hc.owner scope isThere l.context hmem, scope?_eq_some_of_mem hc.distinct isThere]
  rfl

end

section

variable (h : part.Part whole)

include h

theorem HasType.in_part {node : Node} {type : Option ResolvedType} (ht : whole.HasType context node type)
    (hshows : part.Shows context) : part.HasType context node type := by
  cases heq : node.typed? with
  | none =>
    rw [hasType_of_typed?_eq_none heq] at ht ⊢
    exact ht
  | some typed =>
    rw [hasType_of_typed?_eq_some heq] at ht ⊢
    obtain ⟨t, rfl, hd⟩ := ht
    exact ⟨t, rfl, hd.in_part h hshows⟩

theorem Grows.in_part {parent : EntryHead} {grown : List Entry}
    (hg : Grows whole owner inside context parent nodes grown) (hshows : part.Shows context) :
    Grows part owner inside context parent nodes grown := by
  induction hg with
  | nil => exact .nil
  | uses hfound hout _ _ ihgrown ihmore =>
    rw [h.resolve hshows] at hfound
    exact .uses hfound hout (ihgrown (shows_of_resolve hfound)) (ihmore hshows)
  | node hfits htype _ hnames hfindings _ ihinner ihmore =>
    exact .node hfits (htype.in_part h hshows) (ihinner hshows) hnames hfindings (ihmore hshows)

theorem GrowsAll.in_part {parent : EntryHead} {contexts : List Context} {grown : List Entry}
    (hg : GrowsAll whole owner parent contexts grown) (hshows : ∀ context ∈ contexts, part.Shows context) :
    GrowsAll part owner parent contexts grown := by
  induction hg with
  | nil => exact .nil
  | cons hgrown _ ih =>
    rw [List.forall_mem_cons] at hshows
    exact .cons (hgrown.in_part h hshows.1) (ih hshows.2)

theorem Planted.in_part {scope : Scope} {tree : Entry} (hp : whole.Planted scope tree) (hscope : scope ∈ part) :
    part.Planted scope tree where
  head := hp.head
  grown := hp.grown.in_part h fun _ hcontext => ⟨scope, hscope, hcontext⟩
  names := hp.names
  types := by
    intro l hl
    obtain ⟨type, htype⟩ := hp.types l hl
    exact ⟨type, htype.in_part h
      ⟨scope, hscope, mem_contexts_of_mem_definitions (Scope.mem_definitions_of_mem_firsts hl)⟩⟩

end

section

variable (h : part.Part whole) {graft : Graft} (hshows : part.Shows graft.context)

include h hshows

theorem moduleOf_part (segment : Reference) : whole.moduleOf graft segment = part.moduleOf graft segment := by
  unfold moduleOf
  cases hname : graft.context.moduleOf? segment.prefixId with
  | none => rfl
  | some name =>
    dsimp only
    rw [h.scope? name (h.closed graft.context hshows _ _ hname)]

theorem isSome_scope?_of_moduleOf {segment : Reference} {m : Module} (hm : part.moduleOf graft segment = .ok m) :
    (part.scope? m.name).isSome = true := by
  unfold moduleOf at hm
  split at hm
  · cases hm
  · next name hname =>
    have hsome := h.closed graft.context hshows _ _ hname
    split at hm
    · cases hm
    · next scope hscope =>
      cases hm
      rw [(scope?_spec hscope).2]
      exact hsome

theorem follow_part (entry : Entry) (names : List String) (segments : List Reference) :
    whole.follow graft entry names segments = part.follow graft entry names segments := by
  induction segments generalizing entry names with
  | nil => rfl
  | cons segment rest ih =>
    unfold follow
    rw [moduleOf_part h hshows segment]
    simp only [ih]

theorem target_part {forest forest' : Forest}
    (hnamed : ∀ name, (part.scope? name).isSome = true → Entry.named? name forest' = Entry.named? name forest) :
    whole.target forest' graft = part.target forest graft := by
  unfold target
  cases graft.augment.segments.map Reference.ofText with
  | nil => rfl
  | cons segment rest =>
    dsimp only
    rw [moduleOf_part h hshows segment]
    split
    · rfl
    · next m hm =>
      rw [hnamed m.name (isSome_scope?_of_moduleOf h hshows hm)]
      simp only [follow_part h hshows]

theorem isSome_scope?_of_target {forest : Forest} {entry : Entry} {target : Target}
    (htarget : part.target forest graft = .ok (some (entry, target))) : (part.scope? target.module).isSome = true := by
  obtain ⟨⟨segment, rest, m, tree, _, hm, hmodule, _, _⟩, _⟩ := target_eq_some_iff.1 htarget
  rw [hmodule]
  exact isSome_scope?_of_moduleOf h hshows hm

theorem ownerOf_part (hc : part.Coherent) : whole.ownerOf graft = part.ownerOf graft := by
  obtain ⟨scope, hscope, hcontext⟩ := hshows
  have hsome : (part.scope? graft.context.owner).isSome = true := by
    rw [hc.owner scope hscope graft.context hcontext, scope?_eq_some_of_mem hc.distinct hscope]
    rfl
  unfold ownerOf
  rw [h.scope? graft.context.owner hsome]

end

end Scopes

end Yang

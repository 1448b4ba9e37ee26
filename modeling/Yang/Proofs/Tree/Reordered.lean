import Yang.Proofs.Scope.Reordered
import Yang.Proofs.Tree.Alike
import Yang.Proofs.Tree.Confluence

/-!
This module contains what becomes of trees when statements stand in another order: nodes grow into the same entries in
another order, augments go to the same places and bring the same there, so the same forests bloom.
-/

namespace Yang

namespace Node

theorem findings_eq_nil {node : Node} {head : EntryHead} {inner inner' : List Entry}
    (h : Entry.Likewise inner inner') (hn : (inner.map Entry.name).Nodup) (hnil : node.findings head inner = []) :
    node.findings head inner' = [] := by
  have hnamed := h.head_named? hn
  have hsome : ∀ name, (Entry.named? name inner).isSome = (Entry.named? name inner').isSome := by
    intro name
    rw [← Option.isSome_map (f := Entry.head), hnamed, Option.isSome_map]
  have hany : ∀ name, (Entry.named? name inner).any (fun e => e.head.kind == .leaf)
      = (Entry.named? name inner').any (fun e => e.head.kind == .leaf) := by
    intro name
    have heq := congrArg (Option.any (fun head : EntryHead => head.kind == .leaf)) (hnamed name)
    rw [Option.any_map, Option.any_map] at heq
    exact heq
  cases node with
  | list head' nodes =>
    unfold findings keyFindings at hnil ⊢
    dsimp only at hnil ⊢
    simp only [← hany]
    exact hnil
  | choice head' cases =>
    unfold findings at hnil ⊢
    dsimp only at hnil ⊢
    simp only [← hsome]
    exact hnil
  | _ => exact hnil

theorem Matches.fits {node node' : Node} (h : node.Matches node') {parent : EntryHead}
    (hfits : Scopes.Fits node parent) : Scopes.Fits node' parent := by
  have hkind : node.kind = node'.kind := by rw [← kind_bare, h.bare, kind_bare]
  have hconfig : node.config = node'.config := by rw [← config_bare, h.bare, config_bare]
  obtain ⟨huses, hchoice, haccess⟩ := hfits
  rw [hkind] at huses hchoice
  rw [hconfig] at haccess
  exact ⟨huses, hchoice, haccess⟩

end Node

namespace Scopes

open Entry

variable {scopes scopes' : Scopes} {owner : Owner} {inside : List DefinitionKey} {context context' : Context}
  {parent : EntryHead} {nodes nodes' rest : List Node} {node node' : Node} {grown : List Entry}

theorem grows_cons_iff : Grows scopes owner inside context parent (node :: rest) grown
    ↔ ∃ first more, Grows scopes owner inside context parent [node] first
      ∧ Grows scopes owner inside context parent rest more ∧ grown = first ++ more := by
  constructor
  · intro h
    cases h with
    | uses h hout hgrown hmore =>
      refine ⟨_, _, .uses h hout hgrown .nil, hmore, ?_⟩
      rw [List.append_nil]
    | node hfits htype hinner hnames hfindings hmore =>
      exact ⟨_, _, .node hfits htype hinner hnames hfindings .nil, hmore, rfl⟩
  · rintro ⟨first, more, hfirst, hmore, rfl⟩
    cases hfirst with
    | uses h hout hgrown hnil =>
      cases hnil
      rw [List.append_nil]
      exact .uses h hout hgrown hmore
    | node hfits htype hinner hnames hfindings hnil =>
      cases hnil
      exact .node hfits htype hinner hnames hfindings hmore

theorem Grows.perm (h : Grows scopes owner inside context parent nodes grown) (hperm : nodes.Perm nodes') :
    ∃ grown', Grows scopes owner inside context parent nodes' grown' ∧ grown.Perm grown' := by
  induction hperm generalizing grown with
  | nil => exact ⟨grown, h, .refl _⟩
  | cons node _ ih =>
    obtain ⟨first, more, hfirst, hmore, rfl⟩ := grows_cons_iff.1 h
    obtain ⟨more', hmore', hperm'⟩ := ih hmore
    exact ⟨first ++ more', grows_cons_iff.2 ⟨_, _, hfirst, hmore', rfl⟩, hperm'.append_left first⟩
  | swap node node' rest =>
    obtain ⟨first, more, hfirst, hmore, rfl⟩ := grows_cons_iff.1 h
    obtain ⟨second, last, hsecond, hlast, rfl⟩ := grows_cons_iff.1 hmore
    refine ⟨second ++ (first ++ last), ?_, ?_⟩
    · exact grows_cons_iff.2 ⟨_, _, hsecond, grows_cons_iff.2 ⟨_, _, hfirst, hlast, rfl⟩, rfl⟩
    · rw [← List.append_assoc, ← List.append_assoc]
      exact List.perm_append_comm.append_right last
  | trans _ _ ih ih' =>
    obtain ⟨middle, hmiddle, hperm⟩ := ih h
    obtain ⟨grown', hgrown', hperm'⟩ := ih' hmiddle
    exact ⟨grown', hgrown', hperm.trans hperm'⟩

theorem HasType.reordered (h : scopes.Reordered scopes') (hc : context.Reordered context') (hm : node.Matches node')
    {type : Option ResolvedType} (ht : scopes.HasType context node type) : scopes'.HasType context' node' type := by
  have htyped : node.typed? = node'.typed? := by rw [← Node.typed?_bare, hm.bare, Node.typed?_bare]
  cases heq : node.typed? with
  | none =>
    rw [hasType_of_typed?_eq_none heq] at ht
    rw [htyped] at heq
    exact (hasType_of_typed?_eq_none heq type).2 ht
  | some typed =>
    obtain ⟨reference, declared⟩ := typed
    obtain ⟨t, rfl, hdenotes⟩ := (hasType_of_typed?_eq_some heq type).1 ht
    rw [htyped] at heq
    exact (hasType_of_typed?_eq_some heq _).2 ⟨t, rfl, hdenotes.reordered h hc⟩

theorem exists_grows_of_matches {nodes nodes' : List Node}
    (hmatch : ∀ {middle}, List.Forall₂ Node.Matches nodes middle →
      ∃ grown', Grows scopes owner inside context parent middle grown' ∧ Likewise grown grown')
    (hn : Node.Reordered nodes nodes') :
    ∃ grown', Grows scopes owner inside context parent nodes' grown' ∧ Likewise grown grown' := by
  -- first the order inside of each node, then the order among them
  obtain ⟨middle, hforall, hperm⟩ := hn.shuffled
  obtain ⟨grown', hgrown', hlike⟩ := hmatch hforall
  obtain ⟨grown'', hgrown'', hperm'⟩ := hgrown'.perm hperm
  exact ⟨grown'', hgrown'', hlike.trans (likewise_of_perm hperm')⟩

theorem Grows.matched (h : scopes.Reordered scopes') (hg : Grows scopes owner inside context parent nodes grown)
    (hc : context.Reordered context') {middle : List Node} (hmiddle : List.Forall₂ Node.Matches nodes middle) :
    ∃ grown', Grows scopes' owner inside context' parent middle grown' ∧ Likewise grown grown' := by
  induction hg generalizing context' middle with
  | nil =>
    cases hmiddle
    exact ⟨[], .nil, likewise_of_perm (.refl _)⟩
  | uses hfound hout _ _ ihgrown ihmore =>
    cases hmiddle with
    | cons hmatch hrest =>
      rw [Node.bare_eq_of_kind_eq_uses hmatch.bare]
      obtain ⟨found', hfound', hl⟩ := h.resolve hc hfound
      obtain ⟨more', hmore', hlike⟩ := ihmore hc hrest
      have hnodes : Grouping.Reordered _ found'.definition := hl.definition
      obtain ⟨grown', hgrown', hlike'⟩ := exists_grows_of_matches (ihgrown hl.context) hnodes.nodes
      rw [hl.key_eq] at hout hgrown'
      exact ⟨grown' ++ more', .uses hfound' hout hgrown' hmore', hlike'.append hlike⟩
  | node hfits htype _ hnames hfindings _ ihinner ihmore =>
    cases hmiddle with
    | @cons _ node' _ rest' hmatch hrest =>
      obtain ⟨more', hmore', hlike⟩ := ihmore hc hrest
      obtain ⟨inner', hinner', hlike'⟩ := exists_grows_of_matches (ihinner hc) hmatch.children
      have hnil := Node.findings_eq_nil hlike' hnames hfindings
      rw [← Node.findings_bare, ← Node.makeHead_bare, hmatch.bare, Node.findings_bare, Node.makeHead_bare] at hnil
      rw [← Node.makeHead_bare, hmatch.bare, Node.makeHead_bare] at hinner' ⊢
      refine ⟨_, .node (hmatch.fits hfits) (htype.reordered h hc hmatch) hinner' ?_ hnil hmore', hlike'.cons hlike⟩
      exact hlike'.names.nodup_iff.1 hnames

theorem Grows.reordered (h : scopes.Reordered scopes') (hg : Grows scopes owner inside context parent nodes grown)
    (hc : context.Reordered context') (hn : Node.Reordered nodes nodes') :
    ∃ grown', Grows scopes' owner inside context' parent nodes' grown' ∧ Likewise grown grown' :=
  exists_grows_of_matches (fun hmiddle => hg.matched h hc hmiddle) hn

theorem GrowsAll.reordered (h : scopes.Reordered scopes') {contexts contexts' : List Context}
    (hg : GrowsAll scopes owner parent contexts grown) (hc : List.Forall₂ Context.Reordered contexts contexts') :
    ∃ grown', GrowsAll scopes' owner parent contexts' grown' ∧ Likewise grown grown' := by
  induction hg generalizing contexts' with
  | nil =>
    cases hc
    exact ⟨[], .nil, likewise_of_perm (.refl _)⟩
  | cons hgrown _ ih =>
    cases hc with
    | cons hcontext hrest =>
      obtain ⟨more', hmore', hlike⟩ := ih hrest
      obtain ⟨grown', hgrown', hlike'⟩ := hgrown.reordered h hcontext hcontext.document.nodes
      exact ⟨grown' ++ more', .cons hgrown' hmore', hlike'.append hlike⟩

theorem Planted.reordered (h : scopes.Reordered scopes') {scope scope' : Scope} (hs : scope.Reordered scope')
    (hu : scope.Unambiguous) {tree : Entry} (hp : scopes.Planted scope tree) :
    ∃ tree', scopes'.Planted scope' tree' ∧ tree.head = tree'.head ∧ Likewise tree.children tree'.children := by
  obtain ⟨howner, hhead⟩ := hs.main_eq Document.likeness_reordered
  obtain ⟨grown', hgrown', hlike⟩ := hp.grown.reordered h hs.contexts
  rw [howner, hhead] at hgrown'
  refine ⟨.mk scope'.main.head grown', ⟨rfl, hgrown', hlike.names.nodup_iff.1 hp.names, ?_⟩, ?_, hlike⟩
  · -- names are unambiguous, so every definition is the first one of its name
    intro l' hl'
    obtain ⟨l, hl, hreordered⟩ := (Scope.Reordered.symm hs).definition (Scope.mem_definitions_of_mem_firsts hl')
    obtain ⟨type, htype⟩ := hp.types l (Scope.mem_firsts_of_mem hu hl)
    refine ⟨type, htype.reordered h ⟨?_, Context.Reordered.symm hreordered.context⟩⟩
    exact Eq.symm hreordered.definition
  · rw [hp.head, hhead]
    rfl

theorem exists_planted_reordered (h : scopes.Reordered scopes') {list list' : List Scope} {trees : List Entry}
    (hp : List.Forall₂ scopes.Planted list trees) (hs : List.Forall₂ Scope.Reordered list list')
    (hu : ∀ scope ∈ list, scope.Unambiguous) :
    ∃ trees', List.Forall₂ scopes'.Planted list' trees' ∧ Likewise trees trees' := by
  induction hp generalizing list' with
  | nil =>
    cases hs
    exact ⟨[], .nil, likewise_of_perm (.refl _)⟩
  | @cons scope tree rest trees hplanted _ ih =>
    rw [List.forall_mem_cons] at hu
    cases hs with
    | cons hscope hrest =>
      obtain ⟨trees', htrees', hlike⟩ := ih hrest hu.2
      obtain ⟨tree', htree', hhead, hlike'⟩ := hplanted.reordered h hscope hu.1
      refine ⟨tree' :: trees', .cons htree' htrees', ?_⟩
      obtain ⟨head, children⟩ := tree
      obtain ⟨head', children'⟩ := tree'
      cases hhead
      exact Likewise.cons hlike' hlike

end Scopes

structure Graft.Reordered (graft graft' : Graft) : Prop where
  context : graft.context.Reordered graft'.context
  augment : graft.augment.Reordered graft'.augment

theorem Graft.Reordered.alike {graft graft' : Graft} (h : graft.Reordered graft') :
    graft.Alike Document.Reordered graft' :=
  ⟨h.context, h.augment.target⟩

structure Scion.Reordered (scion scion' : Scion) : Prop where
  graft : scion.graft.Reordered scion'.graft
  target : scion.target = scion'.target
  head : scion.head = scion'.head
  grown : Entry.Likewise scion.grown scion'.grown

theorem Scion.Reordered.way_eq {scion scion' : Scion} (h : scion.Reordered scion') : scion.way = scion'.way := by
  unfold Scion.way
  rw [h.target]

theorem Scion.Reordered.brings_iff {scion scion' : Scion} (h : scion.Reordered scion') (way : List String)
    (head : EntryHead) : scion.Brings way head ↔ scion'.Brings way head := by
  unfold Scion.Brings
  simp only [h.way_eq, h.grown.ways]

namespace Scopes

open Entry

variable {scopes scopes' : Scopes} {graft graft' : Graft} {forest trees trees' : Forest} {entry : Entry}
  {target : Target} {scions scions' : List Scion}

theorem Reordered.moduleOf (h : scopes.Reordered scopes') (hg : graft.Reordered graft') {segment : Reference}
    {m : Module} (hm : scopes.moduleOf graft segment = .ok m) :
    ∃ m', scopes'.moduleOf graft' segment = .ok m' ∧ m.name = m'.name ∧ m.uri = m'.uri := by
  rcases moduleOf_alike Document.likeness_reordered h.alike hg.alike segment with
    ⟨_, hf, _⟩ | ⟨_, m', hf, hf', hname, huri⟩
  · rw [hm] at hf
    cases hf
  · rw [hm] at hf
    cases hf
    exact ⟨m', hf', hname, huri⟩

theorem Follows.reordered (h : scopes.Reordered scopes') (hg : graft.Reordered graft') {e d : Entry}
    {segments : List Reference} (hf : Follows scopes graft e segments d) : Follows scopes' graft' e segments d := by
  induction hf with
  | nil => exact .nil _
  | cons hm hc huri _ ih =>
    obtain ⟨m', hm', _, huri'⟩ := h.moduleOf hg hm
    rw [huri'] at huri
    exact .cons hm' hc huri ih

theorem Targets.reordered (h : scopes.Reordered scopes') (hg : graft.Reordered graft')
    (ht : Targets scopes forest graft entry target) : Targets scopes' forest graft' entry target := by
  obtain ⟨⟨segment, rest, m, tree, hsegments, hm, rfl, htree, hfollows⟩, hinner⟩ := ht
  obtain ⟨m', hm', hname, _⟩ := h.moduleOf hg hm
  rw [hname] at htree ⊢
  refine ⟨⟨segment, rest, m', tree, ?_, hm', rfl, htree, hfollows.reordered h hg⟩, hinner⟩
  rw [← hsegments]
  unfold Augment.segments
  rw [hg.augment.target]

theorem exists_takes_reordered (h : scopes.Reordered scopes') {scion : Scion} (ht : scion.Takes scopes forest)
    (hg : scion.graft.Reordered graft') :
    ∃ scion', scion'.graft = graft' ∧ scion'.Takes scopes' forest ∧ scion.Reordered scion' := by
  obtain ⟨⟨entry, hplace, hhead⟩, hgrows, hnames⟩ := ht
  obtain ⟨grown', hgrown', hlike⟩ := hgrows.reordered h hg.context hg.augment.nodes
  rw [ownerOf_alike Document.likeness_reordered h.alike hg.alike] at hgrown'
  refine ⟨⟨graft', scion.target, scion.head, grown'⟩, rfl, ⟨⟨entry, hplace.reordered h hg, hhead⟩, hgrown', ?_⟩, ?_⟩
  · exact hlike.names.nodup_iff.1 hnames
  · exact ⟨hg, rfl, rfl, hlike⟩

theorem exists_scions_reordered (h : scopes.Reordered scopes') {grafts' : List Graft}
    (ht : ∀ scion ∈ scions, scion.Takes scopes forest)
    (hg : List.Forall₂ Graft.Reordered (scions.map Scion.graft) grafts') :
    ∃ scions', scions'.map Scion.graft = grafts' ∧ (∀ scion ∈ scions', scion.Takes scopes' forest)
      ∧ List.Forall₂ Scion.Reordered scions scions' := by
  rw [List.forall₂_map_left_iff] at hg
  induction hg with
  | nil => exact ⟨[], rfl, by simp, .nil⟩
  | cons hgraft _ ih =>
    rw [List.forall_mem_cons] at ht
    obtain ⟨scion', rfl, htakes, hreordered⟩ := exists_takes_reordered h ht.1 hgraft
    obtain ⟨scions', rfl, htakes', hrest⟩ := ih ht.2
    exact ⟨scion' :: scions', rfl, List.forall_mem_cons.2 ⟨htakes, htakes'⟩, .cons hreordered hrest⟩

theorem pairwise_of_forall₂ {α β : Type} {r : α → β → Prop} {p : α → α → Prop} {q : β → β → Prop} {l : List α}
    {l' : List β} (h : List.Forall₂ r l l') (hp : l.Pairwise p)
    (hpq : ∀ {a a' b b'}, r a b → r a' b' → p a a' → q b b') : l'.Pairwise q := by
  induction h with
  | nil => exact .nil
  | @cons a b l l' hab hrest ih =>
    rw [List.pairwise_cons] at hp ⊢
    refine ⟨fun b' hb' => ?_, ih hp.2⟩
    obtain ⟨a', ha', hab'⟩ := exists_of_mem_of_forall₂ hrest.flip hb'
    exact hpq hab hab' (hp.1 a' ha')

theorem Unfolds.reordered (hu : Unfolds scopes trees forest scions) (htrees : Likewise trees trees')
    (ht : ∀ scion ∈ scions', scion.Takes scopes' forest) (hs : List.Forall₂ Scion.Reordered scions scions') :
    Unfolds scopes' trees' forest scions' where
  takes := ht
  entries := by
    intro way head
    rw [hu.entries, htrees.ways]
    apply or_congr_right
    constructor
    · rintro ⟨scion, hscion, hbrings⟩
      obtain ⟨scion', hscion', hreordered⟩ := exists_of_mem_of_forall₂ hs hscion
      exact ⟨scion', hscion', (hreordered.brings_iff way head).1 hbrings⟩
    · rintro ⟨scion', hscion', hbrings⟩
      obtain ⟨scion, hscion, hreordered⟩ := exists_of_mem_of_forall₂ hs.flip hscion'
      exact ⟨scion, hscion, (hreordered.brings_iff way head).2 hbrings⟩
  fresh := by
    intro scion' hscion' way head head' hbrings
    obtain ⟨scion, hscion, hreordered⟩ := exists_of_mem_of_forall₂ hs.flip hscion'
    rw [← htrees.ways]
    exact hu.fresh scion hscion way head head' ((hreordered.brings_iff way head).2 hbrings)
  apart := by
    apply pairwise_of_forall₂ hs hu.apart
    intro a a' b b' ha hb hapart way head head' hbrings hbrings'
    exact hapart way head head' ((ha.brings_iff way head).2 hbrings) ((hb.brings_iff way head').2 hbrings')
  reach := by
    intro done todo hperm hne
    -- a choice among the scions on one side is a choice among those that correspond to them
    obtain ⟨sorted, hsorted, hperm'⟩ := List.perm_comp_forall₂ hperm.symm hs.flip
    have hdone := List.forall₂_take_append sorted done todo hsorted.flip
    have htodo := List.forall₂_drop_append sorted done todo hsorted.flip
    rw [← List.take_append_drop done.length sorted] at hperm'
    have hne' : sorted.drop done.length ≠ [] := by
      intro hnil
      rw [hnil, List.forall₂_nil_left_iff] at htodo
      exact hne htodo
    obtain ⟨scion, hscion, head, hreach⟩ := hu.reach _ _ hperm'.symm hne'
    obtain ⟨scion', hscion', hreordered⟩ := exists_of_mem_of_forall₂ htodo hscion
    refine ⟨scion', hscion', head, ?_⟩
    rw [← hreordered.way_eq, ← htrees.ways]
    apply hreach.imp_right
    rintro ⟨other, hother, hbrings⟩
    obtain ⟨other', hother', hreordered'⟩ := exists_of_mem_of_forall₂ hdone hother
    exact ⟨other', hother', (hreordered'.brings_iff _ _).1 hbrings⟩

theorem Reordered.grafts (h : scopes.Reordered scopes') : Shuffled Graft.Reordered scopes.grafts scopes'.grafts := by
  have hcontext : ∀ {context context' : Context}, context.Reordered context' → Shuffled Graft.Reordered
      (context.document.body.augments.map (fun augment => Graft.mk context augment))
      (context'.document.body.augments.map (fun augment => Graft.mk context' augment)) := by
    intro context context' hc
    exact hc.document.augments.map fun hr => ⟨hc, hr⟩
  unfold Scopes.grafts
  apply Shuffled.flatMap h.alike
  intro scope scope' hs
  apply Shuffled.flatMap hs.contexts
  exact hcontext

theorem Blooms.reordered (h : scopes.Reordered scopes') (hb : Blooms scopes trees forest scions) :
    ∃ trees' scions', Blooms scopes' trees' forest scions' := by
  obtain ⟨middle, hforall, hperm⟩ := h.grafts
  obtain ⟨grafts', hgrafts', hperm'⟩ := List.perm_comp_forall₂ hb.grafts hforall
  obtain ⟨scions', rfl, htakes, hs⟩ := exists_scions_reordered h hb.unfolds.takes hgrafts'
  obtain ⟨trees', hplanted, htrees⟩ := exists_planted_reordered h hb.planted h.alike h.unambiguous
  refine ⟨trees', scions', hplanted, hperm'.trans hperm, ?_, hb.orderly, hb.unfolds.reordered htrees htakes hs⟩
  exact ⟨htrees.names.nodup_iff.1 hb.start.names, tidy_of_planted hplanted⟩

theorem forest_reordered (hc : scopes.Coherent) (hc' : scopes'.Coherent) (h : scopes.Reordered scopes')
    (hnil : scopes.forest.2.problems = []) :
    scopes'.forest.2.problems = [] ∧ Orderly scopes.forest.1 ∧ Orderly scopes'.forest.1
      ∧ Likewise scopes.forest.1 scopes'.forest.1 := by
  obtain ⟨trees, scions, hblooms⟩ := (flourishes_forest hc hnil).blooms hc
  obtain ⟨trees', scions', hblooms'⟩ := hblooms.reordered h
  obtain ⟨hnil', ho', hat⟩ := hblooms'.forest_spec hc'
  refine ⟨hnil', hblooms.orderly, ho', likewise_of_at_iff hblooms.orderly ho' fun way head => (hat way head).symm⟩

end Scopes

end Yang

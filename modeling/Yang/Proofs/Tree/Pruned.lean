import Yang.Proofs.Entry.Pruned
import Yang.Proofs.Tree.Part

/-!
This module contains the trees of scopes without those of one module, when no name in the others leads to it and its
namespace is its own. Every entry that the nodes of a module make has the namespace of that module, so whatever the one
module puts into the trees of others goes with its namespace, and what the others make of their trees never needs any of
it.
-/

namespace Yang

theorem Node.uri_makeHead (node : Node) (owner : Owner) (writable : Bool) (type : Option ResolvedType) :
    (node.makeHead owner writable type).uri = owner.uri := by
  cases node <;> rfl

namespace Scopes

variable {scopes : Scopes} {owner : Owner} {name uri : String} {graft : Graft} {forest forest' trees : Forest}
  {entry : Entry} {target : Target} {grown : List Entry}

theorem Grows.all_uri {inside : List DefinitionKey} {context : Context} {parent : EntryHead} {nodes : List Node}
    (h : Grows scopes owner inside context parent nodes grown) :
    ∀ e ∈ grown, e.All (fun head _ => head.uri = owner.uri) := by
  induction h with
  | nil => nofun
  | uses _ _ _ _ ihgrown ihmore => exact List.forall_mem_append.2 ⟨ihgrown, ihmore⟩
  | @node _ _ parent node _ type _ _ _ _ _ _ _ _ ihinner ihmore =>
    rw [List.forall_mem_cons, Entry.all_mk_iff]
    exact ⟨⟨node.uri_makeHead owner parent.config type, ihinner⟩, ihmore⟩

theorem GrowsAll.all_uri {parent : EntryHead} {contexts : List Context}
    (h : GrowsAll scopes owner parent contexts grown) : ∀ e ∈ grown, e.All (fun head _ => head.uri = owner.uri) := by
  induction h with
  | nil => nofun
  | cons hgrown _ ih => exact List.forall_mem_append.2 ⟨hgrown.all_uri, ih⟩

theorem Planted.all_uri {scope : Scope} {tree : Entry} (h : scopes.Planted scope tree) :
    tree.All (fun head _ => head.uri = scope.main.uri) := by
  obtain ⟨head, children⟩ := tree
  rw [Entry.all_mk_iff]
  exact ⟨congrArg EntryHead.uri h.head, h.grown.all_uri⟩

theorem flatMap_filter {α β : Type} {l : List α} {f : α → List β} {p : α → Bool} {q : β → Bool}
    (h : ∀ a ∈ l, ∀ b ∈ f a, q b = p a) : (l.filter p).flatMap f = (l.flatMap f).filter q := by
  induction l with
  | nil => rfl
  | cons a rest ih =>
    rw [List.forall_mem_cons] at h
    rw [List.flatMap_cons, List.filter_append, ← ih h.2, List.filter_cons]
    cases hp : p a with
    | true => rw [if_pos rfl, List.flatMap_cons, List.filter_eq_self.2 fun b hb => (h.1 b hb).trans hp]
    | false =>
      have hnone : (f a).filter q = [] := by
        rw [List.filter_eq_nil_iff]
        intro b hb
        rw [h.1 b hb, hp]
        exact Bool.false_ne_true
      rw [if_neg Bool.false_ne_true, hnone, List.nil_append]

def but (scopes : Scopes) (name : String) : Scopes :=
  scopes.filter (fun scope => scope.main.name != name)

theorem mem_but_iff {scope : Scope} : scope ∈ scopes.but name ↔ scope ∈ scopes ∧ scope.main.name ≠ name := by
  unfold but
  rw [List.mem_filter, bne_iff_ne]

structure Spares (scopes : Scopes) (name uri : String) : Prop where
  coherent : scopes.Coherent
  part : (scopes.but name).Part scopes
  uri : ∀ scope ∈ scopes, scope.main.uri = uri ↔ scope.main.name = name

theorem Spares.coherent_but (h : scopes.Spares name uri) : (scopes.but name).Coherent where
  distinct := (List.filter_sublist.map _).nodup h.coherent.distinct
  owner := fun scope hscope => h.coherent.owner scope (mem_but_iff.1 hscope).1

theorem Spares.shows_iff (h : scopes.Spares name uri) {context : Context} (hshows : scopes.Shows context) :
    (scopes.but name).Shows context ↔ context.owner ≠ name := by
  obtain ⟨scope, hscope, hcontext⟩ := hshows
  constructor
  · rintro ⟨other, hother, hcontext'⟩
    rw [h.coherent_but.owner other hother context hcontext']
    exact (mem_but_iff.1 hother).2
  · rw [h.coherent.owner scope hscope context hcontext]
    exact fun hne => ⟨scope, mem_but_iff.2 ⟨hscope, hne⟩, hcontext⟩

theorem Spares.uri_ownerOf (h : scopes.Spares name uri) (hshows : scopes.Shows graft.context) :
    (scopes.ownerOf graft).uri = uri ↔ graft.context.owner = name := by
  obtain ⟨scope, hscope, hcontext⟩ := hshows
  unfold ownerOf
  rw [h.coherent.owner scope hscope graft.context hcontext, scope?_eq_some_of_mem h.coherent.distinct hscope]
  exact h.uri scope hscope

theorem Spares.uri_of_heads (h : scopes.Spares name uri)
    (hheads : forest.map Entry.head = scopes.map (fun scope => scope.main.head)) {tree : Entry} (htree : tree ∈ forest) :
    tree.head.uri = uri ↔ tree.name = name := by
  obtain ⟨scope, hscope, hhead⟩ := exists_mem_of_map_eq hheads htree
  unfold Entry.name
  rw [← hhead]
  exact h.uri scope hscope

theorem main_of_moduleOf {segment : Reference} {m : Module} (hm : scopes.moduleOf graft segment = .ok m) :
    ∃ scope ∈ scopes, scope.main = m := by
  unfold moduleOf at hm
  split at hm
  · cases hm
  · split at hm
    · cases hm
    · next scope hscope =>
      cases hm
      exact ⟨scope, (scope?_spec hscope).1, rfl⟩

theorem Spares.moduleOf (h : scopes.Spares name uri) (hshows : (scopes.but name).Shows graft.context)
    {segment : Reference} {m : Module} (hm : scopes.moduleOf graft segment = .ok m) :
    (scopes.but name).moduleOf graft segment = .ok m ∧ m.name ≠ name ∧ m.uri ≠ uri := by
  rw [moduleOf_part h.part hshows] at hm
  obtain ⟨scope, hscope, rfl⟩ := main_of_moduleOf hm
  obtain ⟨hmem, hne⟩ := mem_but_iff.1 hscope
  exact ⟨hm, hne, fun huri => hne ((h.uri scope hmem).1 huri)⟩

theorem planted_but (h : scopes.Spares name uri) {list : Scopes} (hlist : ∀ scope ∈ list, scope ∈ scopes)
    (hp : List.Forall₂ scopes.Planted list trees) :
    List.Forall₂ (scopes.but name).Planted (list.but name) (Entry.withoutAll uri trees) := by
  induction hp with
  | nil =>
    rw [Entry.withoutAll]
    exact .nil
  | @cons scope tree rest trees hplanted _ ih =>
    rw [List.forall_mem_cons] at hlist
    have hall := hplanted.all_uri
    have huri : tree.head.uri = scope.main.uri := hall.self
    unfold but at ih ⊢
    by_cases hname : scope.main.name = name
    · rw [List.filter_cons_of_neg (by simpa using hname), Entry.withoutAll_cons_of_eq]
      · exact ih hlist.2
      · rw [huri]
        exact (h.uri scope hlist.1).2 hname
    · have hne : scope.main.uri ≠ uri := fun heq => hname ((h.uri scope hlist.1).1 heq)
      rw [List.filter_cons_of_pos (by simpa using hname), Entry.withoutAll_cons_of_ne (huri.trans_ne hne)]
      refine .cons ?_ (ih hlist.2)
      rw [Entry.without_eq_self fun d hd => (hall d hd).trans_ne hne]
      exact hplanted.in_part h.part (mem_but_iff.2 ⟨hlist.1, hname⟩)

theorem Grafted.withoutAll_eq (hown : (scopes.ownerOf graft).uri = uri)
    (hg : Grafted scopes forest graft entry target grown forest') :
    Entry.withoutAll uri forest' = Entry.withoutAll uri forest := by
  obtain ⟨tree, htree, hd⟩ := hg.targets.path
  rw [hg.result]
  apply Entry.withoutAll_regrowIn_eq_self htree
  apply Entry.without_regrow_eq_self hd
  have hgone : Entry.withoutAll uri grown = [] :=
    Entry.withoutAll_eq_nil fun e he => (hg.grows.all_uri e he).self.trans hown
  rw [Entry.withoutAll_append, hgone, List.append_nil]

section

variable (h : scopes.Spares name uri)

include h

theorem Follows.but (hshows : (scopes.but name).Shows graft.context) {e d : Entry} {segments : List Reference}
    (hf : Follows scopes graft e segments d) :
    Follows (scopes.but name) graft (e.without uri) segments (d.without uri)
      ∧ ∀ grown, (Entry.regrow grown (segments.map Reference.name) e).without uri
        = Entry.regrow (Entry.withoutAll uri grown) (segments.map Reference.name) (e.without uri) := by
  induction hf with
  | nil e =>
    refine ⟨.nil _, fun grown => ?_⟩
    obtain ⟨head, children⟩ := e
    rw [List.map_nil, Entry.regrow, Entry.without, Entry.without, Entry.regrow]
  | @cons e c d segment rest m hm hc huri _ ih =>
    obtain ⟨hm', _, hne⟩ := h.moduleOf hshows hm
    obtain ⟨hfollows, hregrow⟩ := ih
    have hkept : c.head.uri ≠ uri := huri.trans_ne hne
    refine ⟨.cons hm' (Entry.child?_without hc hkept) ?_ hfollows, fun grown => ?_⟩
    · rw [Entry.head_without]
      exact huri
    · obtain ⟨head, children⟩ := e
      rw [List.map_cons, Entry.regrow, Entry.without, Entry.without, Entry.regrow]
      exact congrArg (Entry.mk head) (Entry.withoutAll_regrowIn hc hkept (hregrow grown))

theorem Grafted.but (hshows : (scopes.but name).Shows graft.context)
    (hheads : forest.map Entry.head = scopes.map (fun scope => scope.main.head))
    (hg : Grafted scopes forest graft entry target grown forest') :
    Grafted (scopes.but name) (Entry.withoutAll uri forest) graft (entry.without uri) target grown
      (Entry.withoutAll uri forest') := by
  obtain ⟨⟨⟨segment, rest, m, tree, hsegments, hm, rfl, htree, hfollows⟩, hinner⟩, hgrows, hnames, rfl⟩ := hg
  obtain ⟨hm', hother, _⟩ := h.moduleOf hshows hm
  obtain ⟨hfollows', hregrow⟩ := hfollows.but h hshows
  obtain ⟨hmem, hname⟩ := Entry.named?_spec htree
  have hkept : tree.head.uri ≠ uri := fun huri => hother (hname.symm.trans ((h.uri_of_heads hheads hmem).1 huri))
  have hown : (scopes.ownerOf graft).uri ≠ uri := by
    obtain ⟨scope, hscope, hcontext⟩ := hshows
    have hshows' : scopes.Shows graft.context := ⟨scope, (mem_but_iff.1 hscope).1, hcontext⟩
    rw [Ne, h.uri_ownerOf hshows']
    exact (h.shows_iff hshows').1 ⟨scope, hscope, hcontext⟩
  have hgrown : Entry.withoutAll uri grown = grown :=
    Entry.withoutAll_eq_self fun e he d hd => (hgrows.all_uri e he d hd).trans_ne hown
  constructor
  · refine ⟨⟨segment, rest, m, tree.without uri, hsegments, hm', rfl, Entry.named?_withoutAll htree hkept, hfollows'⟩, ?_⟩
    rw [Entry.head_without]
    exact hinner
  · rw [Entry.head_without, ← ownerOf_part h.part hshows h.coherent_but]
    exact hgrows.in_part h.part hshows
  · rw [Entry.children_without, List.map_append]
    rw [List.map_append] at hnames
    exact ((Entry.names_withoutAll uri entry.children).append_right _).nodup hnames
  · dsimp only
    rw [Entry.withoutAll_regrowIn htree hkept (hregrow _), Entry.withoutAll_append, hgrown, Entry.children_without]

theorem GraftedAll.but {order : List Graft} (hin : ∀ graft ∈ order, scopes.Shows graft.context)
    (hheads : forest.map Entry.head = scopes.map (fun scope => scope.main.head))
    (hg : GraftedAll scopes forest order forest') :
    GraftedAll (scopes.but name) (Entry.withoutAll uri forest) (order.filter (fun graft => graft.context.owner != name))
      (Entry.withoutAll uri forest') := by
  induction hg with
  | nil forest => exact .nil _
  | @cons forest forest' forest'' graft rest entry target grown hstep _ ih =>
    rw [List.forall_mem_cons] at hin
    have hrest := ih hin.2 (hstep.heads.trans hheads)
    by_cases howner : graft.context.owner = name
    · rw [List.filter_cons_of_neg (by simpa using howner)]
      rw [hstep.withoutAll_eq ((h.uri_ownerOf hin.1).2 howner)] at hrest
      exact hrest
    · rw [List.filter_cons_of_pos (by simpa using howner)]
      exact .cons (hstep.but h ((h.shows_iff hin.1).2 howner) hheads) hrest

theorem grafts_but : (scopes.but name).grafts = scopes.grafts.filter (fun graft => graft.context.owner != name) := by
  unfold grafts but
  apply flatMap_filter
  intro scope hscope graft hgraft
  obtain ⟨context, hcontext, hmem⟩ := List.mem_flatMap.1 hgraft
  obtain ⟨augment, _, rfl⟩ := List.mem_map.1 hmem
  exact congrArg (· != name) (h.coherent.owner scope hscope context hcontext)

theorem Flourishes.but (hf : scopes.Flourishes forest) : (scopes.but name).Flourishes (Entry.withoutAll uri forest) := by
  obtain ⟨trees, order, hplanted, horder, hgrafted⟩ := hf
  have hshows : ∀ graft ∈ order, scopes.Shows graft.context :=
    fun graft hgraft => shows_of_mem_grafts (horder.mem_iff.1 hgraft)
  refine ⟨Entry.withoutAll uri trees, _, planted_but h (fun _ hs => hs) hplanted, ?_,
    hgrafted.but h hshows (heads_of_planted hplanted)⟩
  rw [grafts_but h]
  exact horder.filter _

end

end Scopes

end Yang

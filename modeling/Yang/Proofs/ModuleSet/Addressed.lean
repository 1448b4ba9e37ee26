import Yang.Proofs.Entry.Trail
import Yang.Proofs.ModuleSet.Named

/-!
This module contains the paths of entries as targets of augments. A path tells the prefixes and names of the entries on
the way to an entry, and in a document whose prefixes stand for the modules of these entries it leads back to the entry.
-/

namespace Yang

namespace Entry

theorem segments_pathText {names : List String} (hslash : ∀ n ∈ names, '/' ∉ n.toList) (hempty : ∀ n ∈ names, n ≠ "") :
    (Text.splitAt '/' (pathText names)).filter (fun segment => segment != "") = names := by
  have hnames : names.filter (fun segment => segment != "") = names :=
    List.filter_eq_self.2 fun n hn => by simpa using hempty n hn
  cases names with
  | nil => decide
  | cons n rest =>
    have htext : pathText (n :: rest) = "/".intercalate ("" :: n :: rest) := by
      unfold pathText
      rw [String.intercalate_cons_cons, String.empty_append]
    have hparts : ∀ part ∈ "" :: n :: rest, '/' ∉ part.toList := by
      rw [List.forall_mem_cons]
      exact ⟨List.not_mem_nil, hslash⟩
    rw [htext, show ("/" : String) = String.singleton '/' from rfl,
      Text.splitAt_intercalate (List.cons_ne_nil _ _) hparts,
      List.filter_cons_of_neg (by decide), hnames]

end Entry

structure Context.Knows (context : Context) (scopes : Scopes) (tree : Entry) (entries : List Entry) : Prop where
  own : context.prefixes.lookup tree.head.prefixId = some tree.name
  each : ∀ e ∈ entries, ∃ scope ∈ scopes, scope.main.asOwner = ⟨e.head.prefixId, e.head.uri⟩
    ∧ context.prefixes.lookup e.head.prefixId = some scope.main.name

namespace Scopes

/--
Paths as targets of augments. The path of an entry is read off the way to it from the root of its tree, and no other
entry of the tree has it. As a target it leads to this entry. And wherever any target leads, its segments are the names
of the entries on the way, each of which belongs to the module that its segment calls.
-/
structure Addressed (scopes : Scopes) (forest : Forest) : Prop where
  visits : ∀ tree ∈ forest, ∀ v, v ∈ tree.visits []
    ↔ ∃ names entries, tree.trail? names = some entries ∧ v = Entry.Visit.along ⟨tree.head, []⟩ entries
  path : ∀ tree ∈ forest, ∀ names entries, tree.trail? names = some entries →
    (Entry.Visit.along ⟨tree.head, []⟩ entries).path
      = "/" ++ "/".intercalate (entries.map fun e => e.head.qualifiedName)
  distinct : ∀ tree ∈ forest, ∀ names entries names' entries', tree.trail? names = some entries →
    tree.trail? names' = some entries' →
    (Entry.Visit.along ⟨tree.head, []⟩ entries).path = (Entry.Visit.along ⟨tree.head, []⟩ entries').path →
    names = names'
  target : ∀ tree ∈ forest, ∀ names entries e, names ≠ [] → tree.trail? names = some entries →
    tree.descend? names = some e → ∀ graft : Graft, graft.context.Knows scopes tree entries →
    graft.augment.target = (Entry.Visit.along ⟨tree.head, []⟩ entries).path →
    scopes.target forest graft = if e.head.kind.isLeaf then .error (.targetNoContainer graft.augment.target)
      else .ok (some (e, ⟨tree.name, names⟩))
  found : ∀ graft e target, scopes.target forest graft = .ok (some (e, target)) →
    ∃ tree ∈ forest, ∃ entries first rest, tree.name = target.module ∧ tree.trail? target.names = some entries
      ∧ tree.descend? target.names = some e
      ∧ graft.augment.segments.map Reference.ofText = first :: rest
      ∧ graft.context.moduleOf? first.prefixId = some target.module
      ∧ target.names = (first :: rest).map Reference.name
      ∧ List.Forall₂ (fun segment c => ∃ scope ∈ scopes,
        graft.context.moduleOf? segment.prefixId = some scope.main.name ∧ c.head.uri = scope.main.uri)
        (first :: rest) entries

section

variable {scopes : Scopes} {forest : Forest} {graft : Graft}

theorem moduleOf_spec {segment : Reference} {m : Module} (h : scopes.moduleOf graft segment = .ok m) :
    ∃ scope ∈ scopes, graft.context.moduleOf? segment.prefixId = some scope.main.name ∧ scope.main = m := by
  unfold moduleOf at h
  split at h
  · cases h
  · next name hname =>
    split at h
    · cases h
    · next scope hscope =>
      cases h
      obtain ⟨hs, rfl⟩ := scope?_spec hscope
      exact ⟨scope, hs, hname, rfl⟩

theorem moduleOf_of_lookup (hc : scopes.Coherent) {scope : Scope} (hs : scope ∈ scopes) {prefixId name : String}
    (h : graft.context.prefixes.lookup prefixId = some scope.main.name) :
    scopes.moduleOf graft ⟨some prefixId, name⟩ = .ok scope.main := by
  unfold moduleOf Context.moduleOf?
  dsimp only
  rw [h]
  dsimp only
  rw [scope?_eq_some_of_mem hc.distinct hs]

theorem Follows.trail {e d : Entry} {segments : List Reference} (h : Follows scopes graft e segments d) :
    ∃ entries, e.trail? (segments.map Reference.name) = some entries
      ∧ List.Forall₂ (fun segment c => ∃ scope ∈ scopes,
        graft.context.moduleOf? segment.prefixId = some scope.main.name ∧ c.head.uri = scope.main.uri)
        segments entries := by
  induction h with
  | nil => exact ⟨[], rfl, .nil⟩
  | @cons e c d segment rest m hm hc huri _ ih =>
    obtain ⟨entries, htrail, hentries⟩ := ih
    obtain ⟨scope, hs, hcalled, rfl⟩ := moduleOf_spec hm
    exact ⟨c :: entries, Entry.trail?_cons_eq_some.2 ⟨c, entries, hc, htrail, rfl⟩,
      .cons ⟨scope, hs, hcalled, huri⟩ hentries⟩

theorem follows_of_trail? (hc : scopes.Coherent) {tree e d : Entry} {names : List String} {entries : List Entry}
    (htrail : e.trail? names = some entries) (hd : e.descend? names = some d)
    (hknows : graft.context.Knows scopes tree entries) :
    Follows scopes graft e (entries.map fun c => ⟨some c.head.prefixId, c.head.name⟩) d := by
  induction names generalizing e entries with
  | nil =>
    cases htrail
    cases hd
    exact .nil _
  | cons n rest ih =>
    obtain ⟨c, more, hchild, hmore, rfl⟩ := Entry.trail?_cons_eq_some.1 htrail
    rw [Entry.descend?, hchild] at hd
    have heach := hknows.each
    rw [List.forall_mem_cons] at heach
    obtain ⟨⟨scope, hs, howner, hlookup⟩, hlater⟩ := heach
    have huri : scope.main.uri = c.head.uri := congrArg Owner.uri howner
    obtain ⟨_, rfl⟩ := Entry.named?_spec hchild
    exact .cons (moduleOf_of_lookup hc hs hlookup) hchild huri.symm (ih hmore hd ⟨hknows.own, hlater⟩)

theorem target_of_trail? (hc : scopes.Coherent) {tree c d : Entry} {names : List String} {more : List Entry}
    (hnamed : Entry.named? tree.name forest = some tree) (hroot : c.head.prefixId = tree.head.prefixId)
    (htrail : tree.trail? names = some (c :: more)) (hd : tree.descend? names = some d)
    (hknows : graft.context.Knows scopes tree (c :: more))
    (hsegments : graft.augment.segments.map Reference.ofText
      = (c :: more).map fun e => ⟨some e.head.prefixId, e.head.name⟩) :
    scopes.target forest graft = if d.head.kind.isLeaf then .error (.targetNoContainer graft.augment.target)
      else .ok (some (d, ⟨tree.name, names⟩)) := by
  obtain ⟨scope, hs, _, hlookup⟩ := hknows.each c List.mem_cons_self
  have hmodule : scope.main.name = tree.name := by
    have hown := hknows.own
    rw [← hroot, hlookup] at hown
    exact Option.some.inj hown
  have hfollow : scopes.follow graft tree [] ((c :: more).map fun e => ⟨some e.head.prefixId, e.head.name⟩)
      = .ok (some (d, names)) := by
    rw [follow_eq_some_iff, ← Entry.names_of_trail? htrail, List.map_map]
    exact ⟨follows_of_trail? hc htrail hd hknows, rfl⟩
  rw [List.map_cons] at hfollow
  unfold target
  rw [hsegments, List.map_cons]
  dsimp only
  rw [moduleOf_of_lookup hc hs hlookup]
  dsimp only
  rw [hmodule, hnamed]
  dsimp only
  rw [hfollow]

theorem Owned.orderly (h : scopes.Owned forest) (hc : scopes.Coherent)
    (hheads : forest.map Entry.head = scopes.map (fun s => s.main.head)) : Entry.Orderly forest := by
  obtain ⟨pieces, hconsists, _⟩ := h.pieces
  refine ⟨?_, hconsists.distinct⟩
  rw [Entry.names_eq, hheads, List.map_map]
  exact hc.distinct

theorem kind_of_heads (hheads : forest.map Entry.head = scopes.map (fun s => s.main.head)) :
    ∀ tree ∈ forest, tree.head.kind = .module := by
  intro tree htree
  have hhead : tree.head ∈ forest.map Entry.head := List.mem_map_of_mem htree
  rw [hheads] at hhead
  obtain ⟨scope, _, hscope⟩ := List.mem_map.1 hhead
  rw [← hscope]
  rfl

theorem Owned.named_trail (h : scopes.Owned forest) (hn : scopes.Named) {tree : Entry} (htree : tree ∈ forest)
    {names : List String} {entries : List Entry} (htrail : tree.trail? names = some entries) :
    ∀ c ∈ entries, c.head.Named := by
  intro c hchild
  obtain ⟨d, hd, hchild⟩ := Entry.within_of_trail? htrail c hchild
  exact h.named hn tree htree d hd c hchild

theorem segments_along {root : EntryHead} (hroot : root.kind = .module) {entries : List Entry}
    (hnames : ∀ c ∈ entries, c.head.Named) :
    ((Text.splitAt '/' (Entry.Visit.along ⟨root, []⟩ entries).path).filter (fun segment => segment != "")).map
      Reference.ofText = entries.map fun e => ⟨some e.head.prefixId, e.head.name⟩ := by
  rw [Entry.path_along hroot fun e he => (hnames e he).kind, Entry.segments_pathText, List.map_map]
  · exact List.map_congr_left fun e he => (hnames e he).ofText_qualifiedName
  · rw [List.forall_mem_map]
    exact fun e he => (hnames e he).slash_not_mem
  · rw [List.forall_mem_map]
    exact fun e _ => e.head.qualifiedName_ne_empty

theorem Owned.addressed (h : scopes.Owned forest) (hc : scopes.Coherent) (hn : scopes.Named)
    (hheads : forest.map Entry.head = scopes.map (fun s => s.main.head)) : Addressed scopes forest := by
  have ho := h.orderly hc hheads
  have hroot := kind_of_heads hheads
  constructor
  · intro tree htree v
    exact Entry.mem_visits_iff (ho.below tree htree)
  · intro tree htree names entries htrail
    exact Entry.path_along (hroot tree htree) fun e he => (h.named_trail hn htree htrail e he).kind
  · intro tree htree names entries names' entries' htrail htrail' heq
    have hnames := segments_along (hroot tree htree) (h.named_trail hn htree htrail)
    rw [heq, segments_along (hroot tree htree) (h.named_trail hn htree htrail')] at hnames
    have hmapped := congrArg (List.map Reference.name) hnames
    rw [List.map_map, List.map_map] at hmapped
    rw [← Entry.names_of_trail? htrail, ← Entry.names_of_trail? htrail']
    exact hmapped.symm
  · intro tree htree names entries d hne htrail hd graft hknows htarget
    have hgraft := segments_along (hroot tree htree) (h.named_trail hn htree htrail)
    rw [← htarget] at hgraft
    cases names with
    | nil => exact absurd rfl hne
    | cons n rest =>
      obtain ⟨c, more, hchild, _, rfl⟩ := Entry.trail?_cons_eq_some.1 htrail
      have hown := (h.roots tree htree c (Entry.named?_spec hchild).1).1
      exact target_of_trail? hc (Entry.named?_of_mem ho.names htree) hown htrail hd hknows hgraft
  · intro graft d target htarget
    obtain ⟨⟨first, rest, m, tree, hsplit, hm, rfl, htree, hfollows⟩, _⟩ := target_eq_some_iff.1 htarget
    obtain ⟨hmem, hname⟩ := Entry.named?_spec htree
    obtain ⟨entries, htrail, hcalled⟩ := hfollows.trail
    obtain ⟨scope, _, hmodule, rfl⟩ := moduleOf_spec hm
    exact ⟨tree, hmem, entries, first, rest, hname, htrail, hfollows.descend?, hsplit, hmodule, rfl, hcalled⟩

end

end Scopes

namespace ModuleSet

/--
When a set that comes of an empty one was processed, whatever problems were found, the paths of entries are targets that
lead to them, and targets lead to nothing but the entries that they spell.
-/
theorem process_addressed {store : Store} {files : Files} {problems : List Diagnostic} (hbegun : Begun ⟨store, none⟩)
    (hok : (process ⟨store, none⟩ files).1 = .ok problems) :
    ∃ forest, (process ⟨store, none⟩ files).2.outcome = some ⟨problems, forest⟩
      ∧ Scopes.Addressed (gather store files).1 forest := by
  rw [process_open] at hok ⊢
  split at hok
  · cases hok
  · cases hok
    have hc := (sound_gather store files).coherent
    refine ⟨_, rfl, ?_⟩
    exact (Scopes.owned_forest hc).addressed hc (named_gather hbegun.named files) (Scopes.heads_forest _)

theorem process_addressed_sample : Begun ⟨chest.store, none⟩ ∧ (process ⟨chest.store, none⟩ .empty).1 = .ok []
    ∧ ∃ forest, (process ⟨chest.store, none⟩ .empty).2.outcome = some ⟨[], forest⟩
      ∧ Scopes.Addressed (gather chest.store .empty).1 forest :=
  ⟨begun_chest, process_chest _, process_addressed begun_chest (process_chest _)⟩

end ModuleSet

end Yang

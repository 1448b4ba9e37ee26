import Yang.Proofs.Entry.Assembled
import Yang.Proofs.Format.Nested
import Yang.Proofs.Format.Traversed
import Yang.Proofs.ModuleSet.Addressed
import Yang.Proofs.ModuleSet.Listed

/-!
This module contains what a walk through a tree, the outline, the data paths and the JSON form have in common. All of
them come to the same entries in the same order, those that go down from the root and those that go up from each entry.
-/

namespace Yang

namespace Entry

def Prints (e : Entry) (format text : String) : Prop :=
  ∃ formatter, Registry.builtin.lookup format = some formatter ∧ formatter.render [e] = .ok text

/--
What a walk comes to, and what this has to do with the other ways to go through a tree. The walk comes to whatever the
names of children lead to, once, to an entry before those below it and to these in the order of their names. The outline
has the lines of these entries, each one inside of as many brackets as there are entries above it, and there is one pair
of brackets for each entry that can have others below it. There is a line with the data path of every entry that is no
module, choice or case, and an object in the JSON form for every entry, inside of those of the entries above it. And
where entries are linked to their children and to what is above them, the links lead to the same; such links come of
adding entries to each other.
-/
structure Traversed (e : Entry) : Prop where
  complete : ∀ names v, v ∈ e.walk ∧ v.names = names
    ↔ ∃ entries, e.trail? names = some entries ∧ v = Visit.along ⟨e.head, []⟩ entries
  ordered : (e.walk.map Visit.names).Pairwise (· < ·)
  depth : ∀ v ∈ e.walk, v.above.length = v.names.length
  path : ∀ names entries, e.trail? names = some entries →
    (Visit.along ⟨e.head, []⟩ entries).path = pathText (entries.map fun c => c.head.qualifiedName)
      ∧ (Visit.along ⟨e.head, []⟩ entries).dataPath
        = pathText ((entries.filter fun c => !c.head.kind.isGroup).map fun c => c.head.qualifiedName)
  outline : ∃ text, e.Prints "tree" text ∧ ∀ cut, cut = Text.lines ∨ cut = Text.splitAt '\n' →
    let lines := (cut text).filter fun line => !Outline.isRemark line
    Outline.nested 0 lines = some (e.walk.map fun v => (v.above.length, Outline.rowOf v))
      ∧ lines.filter (fun line => !Outline.closes line) = e.walk.map Outline.rowOf
      ∧ lines.filter Outline.opens = (e.walk.filter fun v => !v.head.kind.isLeaf).map Outline.rowOf
      ∧ lines.countP Outline.closes = e.walk.countP fun v => !v.head.kind.isLeaf
  paths : ∃ text, e.Prints "paths" text
    ∧ Text.lines text = (e.walk.filter Visit.isData).map Visit.dataRow
    ∧ Text.splitAt '\n' text = (e.walk.filter Visit.isData).map Visit.dataRow ++ [""]
  json : Json.objects [] e.toJson = e.walk.map fun v => (v.names, v.head.members)
  linked : ∀ (table : EntryTable) n, table.Holds none n e → table.walk n = e.walk ∧ table.tree n = e
  built : ∃ table n, EntryTable.Built table ∧ table.Holds none n e

theorem Visit.length_names (v : Visit) : v.names.length = v.above.length := by
  unfold Visit.names
  rw [List.length_tail, List.length_map, List.length_reverse, List.length_cons, Nat.add_sub_cancel]

theorem mem_walk_names_iff {e : Entry} (h : e.All Distinct) {names : List String} {v : Visit} :
    v ∈ e.walk ∧ v.names = names
      ↔ ∃ entries, e.trail? names = some entries ∧ v = Visit.along ⟨e.head, []⟩ entries := by
  rw [mem_walk_iff h]
  constructor
  · rintro ⟨⟨_, entries, htrail, rfl⟩, rfl⟩
    rw [Visit.names_along htrail]
    exact ⟨entries, htrail, rfl⟩
  · rintro ⟨entries, htrail, rfl⟩
    exact ⟨⟨names, entries, htrail, rfl⟩, Visit.names_along htrail⟩

theorem traversed {e : Entry} (hrooted : e.Rooted) (hspelled : e.Spelled) (hdistinct : e.All Distinct) :
    e.Traversed where
  complete _ _ := mem_walk_names_iff hdistinct
  ordered := pairwise_walk hdistinct
  depth v _ := v.length_names.symm
  path _ _ htrail :=
    have hkind := hrooted.kind_of_trail? htrail
    ⟨path_along hrooted.kind hkind, dataPath_along hrooted.kind hkind⟩
  outline := by
    refine ⟨e.outline 0, ⟨_, rfl, ?_⟩, fun cut hcut =>
      ⟨Outline.nested_outline hspelled hcut, Outline.opens_outline hspelled hcut⟩⟩
    rw [render_tree rfl]
    unfold Outline.text Yang.outlineLines outline
    rw [List.flatMap_singleton]
  paths := ⟨_, ⟨_, rfl, rfl⟩, lines_dataPaths hrooted hspelled hdistinct⟩
  json := objects_toJson e
  linked _ _ h := ⟨h.walk_eq, h.tree_eq⟩
  built := EntryTable.exists_built hdistinct

end Entry

namespace ModuleSet

theorem Issues.all {tree : Entry} (h : Issues tree) {p : EntryHead → List EntryHead → Prop}
    (hp : ∀ head children, p head.undescribed (children.map EntryHead.undescribed) ↔ p head children)
    (hforest : ∀ scopes : Scopes, scopes.Coherent → scopes.Named → ∀ original ∈ scopes.forest.1, original.All p) :
    tree.All p := by
  obtain ⟨scopes, hc, hn, _, original, hmem, hsame⟩ := h.exists_original
  rw [← Entry.all_undescribed_iff hp, hsame, Entry.all_undescribed_iff hp]
  exact hforest scopes hc hn original hmem

theorem Issues.distinct {tree : Entry} (h : Issues tree) : tree.All Entry.Distinct := by
  refine h.all (p := Entry.Distinct) ?_ ?_
  · intro head children
    unfold Entry.Distinct
    rw [List.map_map]
    rfl
  · intro scopes hc _ original hmem
    exact ((Scopes.owned_forest hc).orderly hc scopes.heads_forest).below original hmem

theorem Issues.rooted {tree : Entry} (h : Issues tree) : tree.Rooted where
  kind := by
    obtain ⟨scopes, _, _, _, original, hmem, hsame⟩ := h.exists_original
    have hhead := congrArg Entry.head hsame
    rw [Entry.head_undescribed, Entry.head_undescribed] at hhead
    have hkind : tree.head.kind = original.head.kind := (congrArg EntryHead.kind hhead :)
    rw [hkind]
    exact Scopes.kind_of_heads scopes.heads_forest original hmem
  below := by
    refine h.all (p := fun _ children => ∀ c ∈ children, c.kind ≠ .module) ?_ ?_
    · intro head children
      exact List.forall_mem_map
    · intro scopes hc hn original hmem d hd
      rw [List.forall_mem_map]
      exact fun c hchild => ((Scopes.owned_forest hc).named hn original hmem d hd c hchild).kind

/--
All ways to go through a tree that comes of processing without a problem agree.
-/
theorem traversed_of_issues {tree : Entry} (h : Issues tree) : tree.Traversed :=
  Entry.traversed h.rooted h.spelled h.distinct

theorem traversed_of_issues_sizes : Issues sizesTree ∧ sizesTree.Traversed
    ∧ (EntryTable.ofEntry sizesTree).Holds none 0 sizesTree :=
  ⟨issues_sizesTree, traversed_of_issues issues_sizesTree, EntryTable.holds_ofEntry sizesTree⟩

end ModuleSet

end Yang

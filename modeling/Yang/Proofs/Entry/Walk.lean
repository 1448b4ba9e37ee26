import Mathlib.Data.List.Lex
import Yang.Proofs.Entry.Trail
import Yang.Proofs.Keyed

/-!
This module contains the walk through a tree: it comes to every entry once, to each of them before its children, and to
these in the order of their names.
-/

namespace Yang.Entry

def Visit.names (v : Visit) : List String :=
  ((v.head :: v.above).reverse.map EntryHead.name).tail

theorem Visit.names_down (v : Visit) (c : Entry) : (v.down c).names = v.names ++ [c.name] := by
  unfold Visit.names Visit.down
  rw [List.reverse_cons, List.map_append, List.tail_append_of_ne_nil]
  · rfl
  · simp

theorem Visit.names_along {e : Entry} {names : List String} {entries : List Entry} (h : e.trail? names = some entries) :
    (Visit.along ⟨e.head, []⟩ entries).names = names := by
  unfold Visit.names
  rw [heads_along, List.reverse_append, List.reverse_reverse, List.reverse_singleton, List.singleton_append,
    List.map_cons, List.tail_cons, List.map_map]
  exact names_of_trail? h

def Sorted (_ : EntryHead) (children : List EntryHead) : Prop :=
  (children.map EntryHead.name).Pairwise (· < ·)

theorem prefix_of_mem_visits {e : Entry} {above : List EntryHead} {v : Visit} (h : v ∈ visits above e) :
    (Visit.mk e.head above).names <+: v.names := by
  rw [visits_eq, List.mem_cons, mem_visitsAll] at h
  rcases h with rfl | ⟨c, hc, hv⟩
  · exact List.prefix_refl _
  · have hdown := Visit.names_down ⟨e.head, above⟩ c
    have hprefix := prefix_of_mem_visits hv
    unfold Visit.down at hdown
    rw [hdown] at hprefix
    exact (List.prefix_append _ _).trans hprefix
termination_by sizeOf e
decreasing_by exact sizeOf_lt_of_mem_children hc

theorem pairwise_visitsAll {v : Visit} {children : List Entry} (h : (children.map name).Pairwise (· < ·))
    (hbelow : ∀ c ∈ children, ((visits (v.head :: v.above) c).map Visit.names).Pairwise (· < ·)) :
    ((visitsAll (v.head :: v.above) children).map Visit.names).Pairwise (· < ·) := by
  induction children with
  | nil => exact .nil
  | cons c rest ih =>
    rw [List.map_cons, List.pairwise_cons] at h
    rw [List.forall_mem_cons] at hbelow
    rw [visitsAll, List.map_append, List.pairwise_append]
    refine ⟨hbelow.1, ih h.2 hbelow.2, ?_⟩
    intro names hnames names' hnames'
    obtain ⟨w, hw, rfl⟩ := List.mem_map.1 hnames
    obtain ⟨w', hw', rfl⟩ := List.mem_map.1 hnames'
    obtain ⟨c', hc', hw'⟩ := mem_visitsAll.1 hw'
    obtain ⟨more, hmore⟩ := prefix_of_mem_visits hw
    obtain ⟨more', hmore'⟩ := prefix_of_mem_visits hw'
    rw [← hmore, ← hmore']
    change (v.down c).names ++ more < (v.down c').names ++ more'
    rw [Visit.names_down, Visit.names_down, List.append_assoc, List.append_assoc]
    apply List.append_left_lt
    exact List.cons_lt_cons_iff.2 (.inl (h.1 _ (List.mem_map_of_mem hc')))

theorem pairwise_visits {e : Entry} (h : e.All Sorted) (above : List EntryHead) :
    ((visits above e).map Visit.names).Pairwise (· < ·) := by
  rw [visits_eq, List.map_cons, List.pairwise_cons]
  constructor
  · intro names hnames
    obtain ⟨w, hw, rfl⟩ := List.mem_map.1 hnames
    obtain ⟨c, _, hw⟩ := mem_visitsAll.1 hw
    obtain ⟨more, hmore⟩ := prefix_of_mem_visits hw
    rw [← hmore]
    change _ < (Visit.down ⟨e.head, above⟩ c).names ++ more
    rw [Visit.names_down, List.append_assoc]
    have hlt : (Visit.mk e.head above).names ++ [] < (Visit.mk e.head above).names ++ ([c.name] ++ more) :=
      List.append_left_lt (List.nil_lt_cons _ _)
    rwa [List.append_nil] at hlt
  · have hsorted := h.self
    unfold Sorted at hsorted
    rw [← names_eq] at hsorted
    apply @pairwise_visitsAll ⟨e.head, above⟩ _ hsorted
    exact fun c hc => pairwise_visits (h.child hc) _
termination_by sizeOf e
decreasing_by exact sizeOf_lt_of_mem_children hc

theorem visitsAll_eq (above : List EntryHead) (entries : List Entry) :
    visitsAll above entries = entries.flatMap (visits above) := by
  induction entries with
  | nil => rfl
  | cons e rest ih => rw [visitsAll, ih, List.flatMap_cons]

theorem inOrderAll_eq (entries : List Entry) : inOrderAll entries = entries.map inOrder := by
  induction entries with
  | nil => rfl
  | cons e rest ih => rw [inOrderAll, ih, List.map_cons]

theorem visits_inOrder (e : Entry) (above : List EntryHead) : (visits above e.inOrder).Perm (visits above e) := by
  rw [visits_eq, visits_eq above e, inOrder_eq]
  refine .cons _ ?_
  rw [visitsAll_eq, visitsAll_eq, inOrderAll_eq]
  change (((e.children.map inOrder).mergeSort _).flatMap (visits (e.head :: above))).Perm _
  refine ((List.mergeSort_perm _ _).flatMap_right _).trans ?_
  rw [List.flatMap_map]
  exact List.Perm.flatMap_left _ fun c hc => visits_inOrder c (e.head :: above)
termination_by sizeOf e
decreasing_by exact sizeOf_lt_of_mem_children hc

theorem sorted_inOrder {e : Entry} (h : e.All Distinct) : e.inOrder.All Sorted := by
  intro d hd
  obtain ⟨c, hc, rfl⟩ := within_inOrder hd
  have hdistinct := h c hc
  unfold Distinct at hdistinct
  unfold Sorted
  rw [← names_eq] at hdistinct ⊢
  rw [inOrder_eq, inOrderAll_eq, List.pairwise_map]
  apply pairwise_lt_mergeSort
  rw [List.map_map]
  have hnames : name ∘ inOrder = name := funext name_inOrder
  rwa [hnames]

theorem pairwise_walk {e : Entry} (h : e.All Distinct) : (e.walk.map Visit.names).Pairwise (· < ·) :=
  pairwise_visits (sorted_inOrder h) []

theorem mem_walk_iff {e : Entry} (h : e.All Distinct) {v : Visit} :
    v ∈ e.walk ↔ ∃ names entries, e.trail? names = some entries ∧ v = Visit.along ⟨e.head, []⟩ entries := by
  unfold walk
  rw [(visits_inOrder e []).mem_iff, mem_visits_iff h]

end Yang.Entry

import Yang.Entry.Table
import Yang.Proofs.Entry.At

/-!
This module contains the equality of trees in whatever order children stand: trees in which the same is found along all
ways are equal, as long as no restriction of a type is set twice.
-/

namespace Yang

def EntryHead.Restricted (head : EntryHead) : Prop :=
  ∀ type, head.type = some type → (type.facets.map Prod.fst).Nodup

theorem lookup_eq_some_of_mem {α β : Type} [BEq α] [LawfulBEq α] {l : List (α × β)} (h : (l.map Prod.fst).Nodup) {a : α}
    {b : β} (hmem : (a, b) ∈ l) : l.lookup a = some b := by
  induction l with
  | nil => cases hmem
  | cons p rest ih =>
    rw [List.map_cons, List.nodup_cons] at h
    rw [List.lookup_cons]
    rcases List.mem_cons.1 hmem with rfl | hmem
    · rw [beq_self_eq_true]
    · have hne : a ≠ p.1 := by
        rintro rfl
        exact h.1 (List.mem_map.2 ⟨_, hmem, rfl⟩)
      rw [beq_eq_false_iff_ne.2 hne]
      exact ih h.2 hmem

theorem sameTable_self {α : Type} [BEq α] [LawfulBEq α] {table : List (String × α)} (h : (table.map Prod.fst).Nodup) :
    sameTable table table = true := by
  unfold sameTable
  rw [beq_self_eq_true, Bool.true_and, List.all_eq_true]
  intro p hp
  rw [lookup_eq_some_of_mem h hp, beq_self_eq_true]

theorem EntryHead.same_self {head : EntryHead} (h : head.Restricted) : head.same head = true := by
  unfold EntryHead.same
  rw [beq_self_eq_true, Bool.true_and]
  cases htype : head.type with
  | none => rfl
  | some type =>
    dsimp only
    unfold ResolvedType.same
    rw [beq_self_eq_true, Bool.true_and]
    exact sameTable_self (h type htype)

namespace Entry

theorem sameAll_iff {entries : List Entry} {d : Entry} :
    sameAll entries d = true ↔ ∀ e ∈ entries, ∃ c, d.child? e.name = some c ∧ same e c = true := by
  induction entries with
  | nil => simp [sameAll]
  | cons e rest ih =>
    rw [sameAll, Bool.and_eq_true, ih, List.forall_mem_cons]
    apply and_congr_left'
    cases d.child? e.name with
    | none => simp
    | some c => simp

theorem same_iff {e d : Entry} : same e d = true
    ↔ e.head.same d.head = true ∧ e.children.length = d.children.length ∧ sameAll e.children d = true := by
  obtain ⟨head, children⟩ := e
  rw [same, Bool.and_eq_true, Bool.and_eq_true, beq_iff_eq, and_assoc]
  rfl

theorem Likewise.same {e d : Entry} (hl : Likewise e.children d.children) (ho : Orderly e.children)
    (ho' : Orderly d.children) (hhead : e.head = d.head) (hr : e.All (fun head _ => head.Restricted)) :
    e.same d = true := by
  rw [same_iff, sameAll_iff, ← hhead]
  refine ⟨EntryHead.same_self hr.self, by simpa using hl.names.length_eq, fun c hc => ?_⟩
  obtain ⟨c', hc', heq, hbelow⟩ := hl.exists_like ho ho' hc
  have hname : c.name = c'.name := congrArg EntryHead.name heq
  refine ⟨c', ?_, ?_⟩
  · rw [hname]
    exact named?_of_mem ho'.names hc'
  · exact hbelow.same (ho.children hc) (ho'.children hc') heq (hr.child hc)
termination_by sizeOf e
decreasing_by exact sizeOf_lt_of_mem_children hc

end Entry

end Yang

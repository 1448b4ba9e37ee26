import Yang.Proofs.Keyed

/-!
This module contains lists that are merged of two lists: the members of both come one after the other, those of each
list in their order.
-/

namespace Yang

inductive Merged {α : Type} : List α → List α → List α → Prop
  | nil : Merged [] [] []
  | left {l l' all : List α} (a : α) (h : Merged l l' all) : Merged (a :: l) l' (a :: all)
  | right {l l' all : List α} (a : α) (h : Merged l l' all) : Merged l (a :: l') (a :: all)

variable {α β : Type} {l l' all : List α}

theorem Merged.symm (h : Merged l l' all) : Merged l' l all := by
  induction h with
  | nil => exact .nil
  | left a _ ih => exact .right a ih
  | right a _ ih => exact .left a ih

theorem Merged.perm (h : Merged l l' all) : all.Perm (l ++ l') := by
  induction h with
  | nil => exact .nil
  | left a _ ih => exact ih.cons a
  | right a _ ih => exact (ih.cons a).trans List.perm_middle.symm

theorem Merged.append {more more' others : List α} (h : Merged l l' all) (h' : Merged more more' others) :
    Merged (l ++ more) (l' ++ more') (all ++ others) := by
  induction h with
  | nil => exact h'
  | left a _ ih => exact .left a ih
  | right a _ ih => exact .right a ih

theorem merged_left (l : List α) : Merged l [] l := by
  induction l with
  | nil => exact .nil
  | cons a rest ih => exact .left a ih

theorem Merged.flatMap (h : Merged l l' all) (f : α → List β) : Merged (l.flatMap f) (l'.flatMap f) (all.flatMap f) := by
  induction h with
  | nil => exact .nil
  | left a _ ih =>
    rw [List.flatMap_cons, List.flatMap_cons]
    exact (merged_left (f a)).append ih
  | right a _ ih =>
    rw [List.flatMap_cons, List.flatMap_cons]
    exact (merged_left (f a)).symm.append ih

theorem merged_filter (p : α → Bool) (l : List α) : Merged (l.filter p) (l.filter (fun a => !p a)) l := by
  induction l with
  | nil => exact .nil
  | cons a rest ih =>
    rw [List.filter_cons, List.filter_cons]
    cases p a with
    | true => exact .left a ih
    | false => exact .right a ih

theorem Merged.filterMap (h : Merged l l' all) (f : α → Option β) :
    Merged (l.filterMap f) (l'.filterMap f) (all.filterMap f) := by
  induction h with
  | nil => exact .nil
  | left a _ ih =>
    rw [List.filterMap_cons, List.filterMap_cons]
    split
    · exact ih
    · exact .left _ ih
  | right a _ ih =>
    rw [List.filterMap_cons, List.filterMap_cons]
    split
    · exact ih
    · exact .right _ ih

theorem Merged.find?_eq_or (h : Merged l l' all) {p : α → Bool} (hapart : ∀ a ∈ l, p a = true → ∀ b ∈ l', p b = false) :
    all.find? p = (l.find? p).or (l'.find? p) := by
  induction h with
  | nil => rfl
  | left a _ ih =>
    rw [List.forall_mem_cons] at hapart
    rw [List.find?_cons, List.find?_cons, ih hapart.2]
    cases p a with
    | true => rfl
    | false => rfl
  | @right l l' all b _ ih =>
    have hrest : ∀ a ∈ l, p a = true → ∀ b ∈ l', p b = false :=
      fun a ha hpa c hc => hapart a ha hpa c (List.mem_cons_of_mem _ hc)
    rw [List.find?_cons, List.find?_cons, ih hrest]
    cases hpb : p b with
    | false => rfl
    | true =>
      have hnone : l.find? p = none := by
        rw [List.find?_eq_none]
        intro a ha hpa
        rw [hapart a ha hpa b List.mem_cons_self] at hpb
        cases hpb
      rw [hnone]
      rfl

theorem merged_mergeSort {key : α → String} (hn : (all.map key).Nodup) (h : all.Perm (l ++ l')) :
    Merged (l.mergeSort (fun a b => decide (key a ≤ key b))) (l'.mergeSort (fun a b => decide (key a ≤ key b)))
      (all.mergeSort (fun a b => decide (key a ≤ key b))) := by
  have hboth : ((l ++ l').map key).Nodup := (h.map key).nodup_iff.1 hn
  rw [List.map_append, List.nodup_append] at hboth
  obtain ⟨hl, hl', hapart⟩ := hboth
  -- the names tell which of the two lists a member comes from
  have hfilter : ∀ {p : α → Bool} {l : List α}, (l.map key).Nodup → (all.filter p).Perm l →
      (all.mergeSort (fun a b => decide (key a ≤ key b))).filter p
        = l.mergeSort (fun a b => decide (key a ≤ key b)) := by
    intro p l hl hperm
    apply @eq_of_perm_of_pairwise_lt _ key _ _ ((pairwise_lt_mergeSort hn).filter p) (pairwise_lt_mergeSort hl)
    exact (((List.mergeSort_perm _ _).filter p).trans hperm).trans (List.mergeSort_perm _ _).symm
  have hleft : ∀ a ∈ l, (l.map key).contains (key a) = true := by
    intro a ha
    rw [List.contains_eq_mem, decide_eq_true_eq]
    exact List.mem_map_of_mem ha
  have hright : ∀ a ∈ l', (l.map key).contains (key a) = false := by
    intro a ha
    rw [List.contains_eq_mem, decide_eq_false_iff_not]
    exact fun hin => hapart _ hin _ (List.mem_map_of_mem ha) rfl
  rw [← hfilter (p := fun a => (l.map key).contains (key a)) hl,
    ← hfilter (p := fun a => !(l.map key).contains (key a)) hl']
  · exact merged_filter _ _
  · apply (h.filter _).trans
    rw [List.filter_append, List.filter_eq_nil_iff.2 fun a ha => by rw [hleft a ha]; exact Bool.false_ne_true,
      List.filter_eq_self.2 fun a ha => by rw [hright a ha]; rfl]
    rfl
  · apply (h.filter _).trans
    rw [List.filter_append, List.filter_eq_self.2 hleft,
      List.filter_eq_nil_iff.2 fun a ha => by rw [hright a ha]; exact Bool.false_ne_true, List.append_nil]

end Yang

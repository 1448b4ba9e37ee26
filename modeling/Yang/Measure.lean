/-!
This module contains lemmas about counts that fall from step to step, by which searches come to an end.
-/

namespace Yang.Measure

theorem length_filter_le {α : Type} {p q : α → Bool} (l : List α) (hpq : ∀ a ∈ l, q a = true → p a = true) :
    (l.filter q).length ≤ (l.filter p).length := by
  simpa only [← List.countP_eq_length_filter] using List.countP_mono_left hpq

theorem length_filter_lt {α : Type} {p q : α → Bool} {l : List α} (hpq : ∀ a ∈ l, q a = true → p a = true)
    {a : α} (ha : a ∈ l) (hp : p a = true) (hq : q a = false) :
    (l.filter q).length < (l.filter p).length := by
  obtain ⟨before, after, rfl⟩ := List.append_of_mem ha
  have hbefore := length_filter_le before fun b hb => hpq b (List.mem_append_left _ hb)
  have hafter := length_filter_le after fun b hb =>
    hpq b (List.mem_append_right _ (List.mem_cons_of_mem _ hb))
  simp only [List.filter_append, List.filter_cons, hp, hq, Bool.false_eq_true, if_true, if_false,
    List.length_append, List.length_cons]
  omega

theorem mem_of_lookup_isSome {α β : Type} [BEq α] [LawfulBEq α] {l : List (α × β)} {a : α}
    (h : (l.lookup a).isSome = true) : ∃ b, (a, b) ∈ l := by
  induction l with
  | nil => simp at h
  | cons p rest ih =>
    obtain ⟨k, v⟩ := p
    rw [List.lookup_cons] at h
    split at h
    · next hk =>
      rw [eq_of_beq hk]
      exact ⟨v, List.mem_cons_self⟩
    · obtain ⟨b, hb⟩ := ih h
      exact ⟨b, List.mem_cons_of_mem _ hb⟩

end Yang.Measure

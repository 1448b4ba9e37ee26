import Mathlib.Data.List.Forall2
import Mathlib.Data.List.Sort
import Mathlib.Data.String.Basic
import Yang.Text.Blank

/-!
This module contains lists of things that have names: what is found by a name, how such lists are sorted, and what lists
have in common that correspond member by member.
-/

namespace Yang

namespace Text

theorem nodup_eraseDups (names : List String) : names.eraseDups.Nodup := by
  generalize hn : names.length = n
  induction n using Nat.strongRecOn generalizing names with
  | ind n ih =>
    cases names with
    | nil => simp
    | cons name rest =>
      rw [List.eraseDups_cons, List.nodup_cons]
      constructor
      · simp
      · have hlen := List.length_filter_le (fun b => !b == name) rest
        apply ih _ _ _ rfl
        rw [← hn, List.length_cons]
        omega

theorem pairwise_lt_sorted {names : List String} (h : names.Nodup) : (sorted names).Pairwise (· < ·) := by
  have hle : (sorted names).Pairwise (· ≤ ·) := List.pairwise_mergeSort' (r := (· ≤ ·)) names
  have hne : (sorted names).Nodup := (List.mergeSort_perm names _).nodup_iff.2 h
  exact (hle.and hne).imp fun hab => lt_of_le_of_ne hab.1 hab.2

theorem eq_of_pairwise_lt {names others : List String} (h : names.Pairwise (· < ·))
    (h' : others.Pairwise (· < ·)) (hmem : ∀ name, name ∈ names ↔ name ∈ others) : names = others :=
  h.eq_of_mem_iff h' hmem

end Text

variable {α β : Type} {r : α → β → Prop} {l : List α} {l' : List β}

theorem find?_eq_some_of_mem {key : α → String} (h : (l.map key).Nodup) {a : α} (ha : a ∈ l) :
    l.find? (fun b => key b == key a) = some a := by
  induction l with
  | nil => cases ha
  | cons first rest ih =>
    rw [List.map_cons, List.nodup_cons] at h
    rw [List.find?_cons]
    rcases List.mem_cons.1 ha with rfl | ha
    · rw [beq_self_eq_true]
    · have hne : key first ≠ key a := by
        intro heq
        apply h.1
        rw [heq]
        exact List.mem_map_of_mem ha
      rw [beq_eq_false_iff_ne.2 hne]
      exact ih h.2 ha

theorem exists_mem_of_map_eq {γ : Type} {f : α → γ} {g : β → γ} (h : l.map f = l'.map g) {a : α} (ha : a ∈ l) :
    ∃ b ∈ l', g b = f a := by
  have hmem : f a ∈ l.map f := List.mem_map_of_mem ha
  rw [h] at hmem
  exact List.mem_map.1 hmem

theorem pairwise_lt_mergeSort {key : α → String} {l : List α} (h : (l.map key).Nodup) :
    (l.mergeSort (fun a b => decide (key a ≤ key b))).Pairwise (fun a b => key a < key b) := by
  have hlt := Text.pairwise_lt_sorted h
  unfold Text.sorted at hlt
  rw [← List.map_mergeSort (r := fun a b => decide (key a ≤ key b)) (fun _ _ _ _ => rfl), List.pairwise_map] at hlt
  exact hlt

theorem eq_of_perm_of_pairwise_lt {key : α → String} {l l' : List α} (h : l.Pairwise (fun a b => key a < key b))
    (h' : l'.Pairwise (fun a b => key a < key b)) (hperm : l.Perm l') : l = l' := by
  apply List.Perm.eq_of_pairwise _ h h' hperm
  intro a b _ _ hab hba
  exact absurd hba (lt_asymm hab)

theorem mergeSort_eq_of_mem_iff {key : α → String} {l l' : List α} (hn : (l.map key).Nodup) (hn' : (l'.map key).Nodup)
    (hmem : ∀ a, a ∈ l ↔ a ∈ l') :
    l.mergeSort (fun a b => decide (key a ≤ key b)) = l'.mergeSort (fun a b => decide (key a ≤ key b)) := by
  have hperm : l.Perm l' := (List.perm_ext_iff_of_nodup hn.of_map hn'.of_map).2 hmem
  apply eq_of_perm_of_pairwise_lt (pairwise_lt_mergeSort hn) (pairwise_lt_mergeSort hn')
  exact ((List.mergeSort_perm _ _).trans hperm).trans (List.mergeSort_perm _ _).symm

theorem forall₂_mergeSort (h : List.Forall₂ r l l') {le : α → α → Bool} {le' : β → β → Bool}
    (hle : ∀ {a b a' b'}, r a a' → r b b' → le a b = le' a' b') :
    List.Forall₂ r (l.mergeSort le) (l'.mergeSort le') := by
  -- both lists come from one list of the pairs that correspond, and that is the list to sort
  have hpairs : ∃ pairs : List { q : α × β // r q.1 q.2 },
      pairs.map (fun q => q.1.1) = l ∧ pairs.map (fun q => q.1.2) = l' := by
    induction h with
    | nil => exact ⟨[], rfl, rfl⟩
    | @cons a b _ _ hab _ ih =>
      obtain ⟨pairs, rfl, rfl⟩ := ih
      exact ⟨⟨(a, b), hab⟩ :: pairs, rfl, rfl⟩
  obtain ⟨pairs, rfl, rfl⟩ := hpairs
  rw [← List.map_mergeSort (r := fun x y => le x.1.1 y.1.1) (fun _ _ _ _ => rfl)]
  rw [← List.map_mergeSort (r := fun x y => le x.1.1 y.1.1) (fun x _ y _ => hle x.2 y.2)]
  generalize pairs.mergeSort (fun x y => le x.1.1 y.1.1) = sorted
  induction sorted with
  | nil => exact .nil
  | cons q rest ih => exact .cons q.2 ih

theorem exists_of_mem_of_forall₂ (h : List.Forall₂ r l l') {a : α} (ha : a ∈ l) : ∃ b ∈ l', r a b := by
  induction h with
  | nil => cases ha
  | cons hab _ ih =>
    rcases List.mem_cons.1 ha with rfl | ha
    · exact ⟨_, List.mem_cons_self, hab⟩
    · obtain ⟨b, hb, hab⟩ := ih ha
      exact ⟨b, List.mem_cons_of_mem _ hb, hab⟩

theorem rel_find? (h : List.Forall₂ r l l') {p : α → Bool} {q : β → Bool} (hpq : ∀ {a b}, r a b → p a = q b) :
    Option.Rel r (l.find? p) (l'.find? q) := by
  induction h with
  | nil => exact .none
  | cons hab _ ih =>
    rw [List.find?_cons, List.find?_cons, ← hpq hab]
    split
    · exact .some hab
    · exact ih

theorem rel_or {o p : Option α} {o' p' : Option β} (ho : Option.Rel r o o') (hp : Option.Rel r p p') :
    Option.Rel r (o.or p) (o'.or p') := by
  cases ho with
  | none => exact hp
  | some h => exact .some h

theorem rel_self {r : α → α → Prop} (h : ∀ a, r a a) (o : Option α) : Option.Rel r o o := by
  cases o with
  | none => exact .none
  | some a => exact .some (h a)

theorem isSome_of_rel {o : Option α} {o' : Option β} (h : Option.Rel r o o') : o.isSome = o'.isSome := by
  cases h <;> rfl

theorem exists_of_rel {a : α} {o' : Option β} (h : Option.Rel r (some a) o') : ∃ b, o' = some b ∧ r a b := by
  cases h with
  | some h => exact ⟨_, rfl, h⟩

theorem forall₂_trans {r : α → α → Prop} (hr : ∀ {a b c}, r a b → r b c → r a c) {l l' l'' : List α}
    (h : List.Forall₂ r l l') (h' : List.Forall₂ r l' l'') : List.Forall₂ r l l'' := by
  induction h generalizing l'' with
  | nil => exact h'
  | cons hab _ ih =>
    cases h' with
    | cons hbc hrest => exact .cons (hr hab hbc) (ih hrest)

end Yang

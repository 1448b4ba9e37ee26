import Mathlib.Data.List.Basic
import Yang.Text.Surrogate

/-!
This module contains the units of sixteen bits of texts. A code point beyond sixteen bits has two units, which are the
halves of a pair. So the units of a text do not tell such a code point from two halves that stand side by side, but they
tell everything else.
-/

namespace Yang.Text

def unitsOf (n : Nat) : List Nat :=
  if n < 0x10000 then [n] else [0xD800 + (n - 0x10000) / 0x400, 0xDC00 + (n - 0x10000) % 0x400]

def units (s : String) : List Nat :=
  (codes s.toList).flatMap unitsOf

/--
Whether texts have the same code points, or one of them has halves in it and they have the same units.
-/
def Same (s s' : String) : Prop :=
  codes s.toList = codes s'.toList ∨ ((isBroken s = true ∨ isBroken s' = true) ∧ units s = units s')

theorem toNat_lt (c : Char) : c.toNat < 0x110000 := by
  have h : c.toNat.isValidChar := c.valid
  unfold Nat.isValidChar at h
  omega

theorem codes_lt (cs : List Char) : ∀ n ∈ codes cs, n < 0x110000 := by
  fun_induction codes cs with
  | case1 => exact List.forall_mem_nil _
  | case2 c =>
    rw [List.forall_mem_singleton]
    exact toNat_lt c
  | case3 rest ih =>
    rw [List.forall_mem_cons]
    exact ⟨toNat_lt _, ih⟩
  | case4 d rest _ _ ih =>
    rw [List.forall_mem_cons]
    exact ⟨Nat.lt_of_le_of_lt (Nat.sub_le _ _) (toNat_lt d), ih⟩
  | case5 d rest _ _ ih =>
    rw [List.forall_mem_cons]
    exact ⟨toNat_lt _, ih⟩
  | case6 c d rest _ ih =>
    rw [List.forall_mem_cons]
    exact ⟨toNat_lt c, ih⟩

theorem unitsOf_lt {n : Nat} (hn : n < 0x110000) : ∀ u ∈ unitsOf n, u < 0x10000 := by
  unfold unitsOf
  split
  · next h =>
    rw [List.forall_mem_singleton]
    exact h
  · rw [List.forall_mem_cons, List.forall_mem_singleton]
    omega

theorem units_lt (s : String) : ∀ u ∈ units s, u < 0x10000 := by
  intro u hu
  obtain ⟨n, hn, hu⟩ := List.mem_flatMap.1 hu
  exact unitsOf_lt (codes_lt _ n hn) u hu

theorem unitsOf_ne_nil (n : Nat) : unitsOf n ≠ [] := by
  unfold unitsOf
  split
  · nofun
  · nofun

theorem isSurrogate_iff {n : Nat} : isSurrogate n = true ↔ 0xD800 ≤ n ∧ n ≤ 0xDFFF := by
  unfold isSurrogate
  rw [Bool.and_eq_true, decide_eq_true_eq, decide_eq_true_eq]

theorem unitsOf_append_inj {n n' : Nat} (hn : isSurrogate n = false) (hn' : isSurrogate n' = false)
    (hlt : n < 0x110000) (hlt' : n' < 0x110000) {rest rest' : List Nat}
    (h : unitsOf n ++ rest = unitsOf n' ++ rest') : n = n' ∧ rest = rest' := by
  rw [Bool.eq_false_iff, ne_eq, isSurrogate_iff] at hn hn'
  unfold unitsOf at h
  split at h
  · split at h
    · exact List.cons.inj h
    · -- a code point that is no half is not the first unit of a pair
      have hfirst := (List.cons.inj h).1
      omega
  · split at h
    · have hfirst := (List.cons.inj h).1
      omega
    · obtain ⟨hfirst, h⟩ := List.cons.inj h
      obtain ⟨hsecond, h⟩ := List.cons.inj h
      exact ⟨by omega, h⟩

theorem codes_eq_of_units_eq {s s' : String} (h : units s = units s') (hs : isBroken s = false)
    (hs' : isBroken s' = false) : codes s.toList = codes s'.toList := by
  have hlt := codes_lt s.toList
  have hlt' := codes_lt s'.toList
  unfold isBroken at hs hs'
  unfold units at h
  generalize codes s.toList = points at h hs hlt ⊢
  generalize codes s'.toList = points' at h hs' hlt' ⊢
  induction points generalizing points' with
  | nil =>
    cases points' with
    | nil => rfl
    | cons n' rest' =>
      rw [List.flatMap_nil, List.flatMap_cons] at h
      exact absurd (List.append_eq_nil_iff.1 h.symm).1 (unitsOf_ne_nil n')
  | cons n rest ih =>
    cases points' with
    | nil =>
      rw [List.flatMap_nil, List.flatMap_cons] at h
      exact absurd (List.append_eq_nil_iff.1 h).1 (unitsOf_ne_nil n)
    | cons n' rest' =>
      rw [List.any_cons, Bool.or_eq_false_iff] at hs hs'
      rw [List.forall_mem_cons] at hlt hlt'
      rw [List.flatMap_cons, List.flatMap_cons] at h
      obtain ⟨rfl, hrest⟩ := unitsOf_append_inj hs.1 hs'.1 hlt.1 hlt'.1 h
      rw [ih hs.2 hlt.2 rest' hrest hs'.2 hlt'.2]

theorem same_iff {s s' : String} : Same s s' ↔ units s = units s' := by
  constructor
  · rintro (hcodes | ⟨_, hunits⟩)
    · unfold units
      rw [hcodes]
    · exact hunits
  · intro hunits
    by_cases hbroken : isBroken s = true ∨ isBroken s' = true
    · exact .inr ⟨hbroken, hunits⟩
    · rw [not_or, Bool.not_eq_true, Bool.not_eq_true] at hbroken
      exact .inl (codes_eq_of_units_eq hunits hbroken.1 hbroken.2)

end Yang.Text

import Mathlib.Tactic.Tauto
import Yang.Schema.Field

/-!
This module contains the cutting of texts that were put together with a separator. The pieces come back as they were
when the separator stands in none of them. It never does in identifiers, whatever separates them.
-/

namespace Yang

namespace Text

theorem pieces_eq_splitOn (sep : Char) (cs : List Char) : pieces sep cs = cs.splitOn sep := by
  induction cs with
  | nil => rfl
  | cons c rest ih =>
    unfold pieces
    have hsplit : (c :: rest).splitOn sep
        = if (c == sep) = true then [] :: rest.splitOn sep else (rest.splitOn sep).modifyHead (List.cons c) :=
      List.splitOnP_cons_eq_if_modifyHead c rest
    rw [ih, hsplit]
    by_cases h : c = sep
    · rw [if_pos h, if_pos (beq_iff_eq.2 h)]
    · rw [if_neg h, if_neg (by simpa using h)]
      have hne : rest.splitOn sep ≠ [] := ih ▸ pieces_ne_nil sep rest
      cases hpieces : rest.splitOn sep with
      | nil => exact absurd hpieces hne
      | cons piece more => rfl

theorem pieces_intercalate {sep : Char} {parts : List (List Char)} (hne : parts ≠ []) (h : ∀ part ∈ parts, sep ∉ part) :
    pieces sep ([sep].intercalate parts) = parts := by
  rw [pieces_eq_splitOn, List.splitOn_intercalate sep h hne]

theorem pieces_append {sep : Char} {part rest : List Char} (h : sep ∉ part) :
    pieces sep (part ++ sep :: rest) = part :: pieces sep rest := by
  rw [pieces_eq_splitOn, pieces_eq_splitOn]
  apply List.splitOnP_append_cons_of_forall_mem
  · exact fun c hc => beq_false_of_ne fun heq => h (heq ▸ hc)
  · exact beq_self_eq_true sep

theorem pieces_of_not_mem {sep : Char} {part : List Char} (h : sep ∉ part) : pieces sep part = [part] := by
  rw [pieces_eq_splitOn]
  exact List.splitOnP_eq_singleton fun c hc => beq_false_of_ne fun heq => h (heq ▸ hc)

theorem forall_mem_intercalate {p : Char → Prop} {sep : String} {parts : List String} (hsep : ∀ c ∈ sep.toList, p c)
    (h : ∀ part ∈ parts, ∀ c ∈ part.toList, p c) : ∀ c ∈ (sep.intercalate parts).toList, p c := by
  induction parts with
  | nil => exact List.forall_mem_nil _
  | cons part rest ih =>
    rw [List.forall_mem_cons] at h
    cases rest with
    | nil =>
      rw [String.intercalate_singleton]
      exact h.1
    | cons next more =>
      rw [String.intercalate_cons_cons, String.toList_append, String.toList_append, List.forall_mem_append,
        List.forall_mem_append]
      exact ⟨⟨h.1, hsep⟩, ih h.2⟩

theorem splitAt_intercalate {sep : Char} {parts : List String} (hne : parts ≠ [])
    (h : ∀ part ∈ parts, sep ∉ part.toList) : splitAt sep ((String.singleton sep).intercalate parts) = parts := by
  unfold splitAt
  rw [String.toList_intercalate, String.toList_singleton, pieces_intercalate (by simpa using hne) (by simpa using h),
    List.map_map]
  exact (List.map_congr_left fun part _ => String.ofList_toList).trans (List.map_id _)

end Text

namespace Field

theorem continuesName_of_opensName {c : Char} (h : opensName c = true) : continuesName c = true := by
  unfold opensName at h
  unfold continuesName Char.isAlphanum
  simp only [Bool.or_eq_true] at h ⊢
  tauto

theorem continuesName_of_mem {s : String} (h : isIdentifier s = true) : ∀ c ∈ s.toList, continuesName c = true := by
  unfold isIdentifier at h
  split at h
  · cases h
  · next c rest heq =>
    rw [Bool.and_eq_true, List.all_eq_true] at h
    rw [heq, List.forall_mem_cons]
    exact ⟨continuesName_of_opensName h.1, h.2⟩

theorem not_mem_of_isIdentifier {s : String} (h : isIdentifier s = true) {c : Char} (hc : continuesName c = false) :
    c ∉ s.toList := by
  intro hmem
  have hname := continuesName_of_mem h c hmem
  rw [hc] at hname
  cases hname

theorem ne_empty_of_isIdentifier {s : String} (h : isIdentifier s = true) : s ≠ "" := by
  rintro rfl
  cases h

end Field

end Yang

import Mathlib.Data.List.DropRight
import Yang.Proofs.Text.Separator

/-!
This module contains what is cut out of a text: the pieces between separators, and what is left of a piece without the
blanks at its ends. Cutting it once more leaves it as it is.
-/

namespace Yang.Text

theorem not_mem_of_mem_pieces {sep : Char} {cs piece : List Char} (h : piece ∈ pieces sep cs) : sep ∉ piece := by
  fun_induction pieces sep cs generalizing piece with
  | case1 =>
    rw [List.mem_singleton.1 h]
    exact List.not_mem_nil
  | case2 rest ih =>
    rcases List.mem_cons.1 h with rfl | h
    · exact List.not_mem_nil
    · exact ih h
  | case3 c rest hc hnil ih => exact absurd hnil (pieces_ne_nil sep rest)
  | case4 c rest hc first more hpieces ih =>
    rw [hpieces] at ih
    rcases List.mem_cons.1 h with rfl | h
    · rw [List.mem_cons, not_or]
      exact ⟨Ne.symm hc, ih List.mem_cons_self⟩
    · exact ih (List.mem_cons_of_mem _ h)

theorem not_mem_of_mem_splitAt {sep : Char} {s part : String} (h : part ∈ splitAt sep s) : sep ∉ part.toList := by
  obtain ⟨piece, hpiece, rfl⟩ := List.mem_map.1 h
  rw [String.toList_ofList]
  exact not_mem_of_mem_pieces hpiece

theorem splitAt_of_not_mem {sep : Char} {s : String} (h : sep ∉ s.toList) : splitAt sep s = [s] := by
  unfold splitAt
  rw [pieces_of_not_mem h, List.map_singleton, String.ofList_toList]

variable {p : Char → Bool} {cs : List Char}

def Trimmed (p : Char → Bool) (cs : List Char) : Prop :=
  (∀ c ∈ cs.head?, p c = false) ∧ ∀ c ∈ cs.getLast?, p c = false

theorem trim_eq_rdropWhile (p : Char → Bool) (cs : List Char) : trim p cs = (cs.dropWhile p).rdropWhile p :=
  rfl

theorem isPrefix_trim (p : Char → Bool) (cs : List Char) : trim p cs <+: cs.dropWhile p :=
  List.rdropWhile_prefix p _

theorem mem_of_mem_trim {c : Char} (h : c ∈ trim p cs) : c ∈ cs :=
  (List.dropWhile_sublist p).subset ((isPrefix_trim p cs).subset h)

theorem trimmed_trim (p : Char → Bool) (cs : List Char) : Trimmed p (trim p cs) := by
  constructor
  · -- what is left begins as it did when only the front was trimmed
    intro c hc
    obtain ⟨rest, hrest⟩ := isPrefix_trim p cs
    have hfirst := List.head?_dropWhile_not p cs
    rw [← hrest, List.head?_append, hc] at hfirst
    exact hfirst
  · intro c hc
    obtain ⟨hne, rfl⟩ := List.mem_getLast?_eq_getLast hc
    rw [← Bool.not_eq_true]
    exact List.rdropWhile_last_not p (cs.dropWhile p) hne

theorem trim_of_trimmed (h : Trimmed p cs) : trim p cs = cs := by
  have hfront : cs.dropWhile p = cs := by
    cases cs with
    | nil => rfl
    | cons c rest => exact List.dropWhile_cons_of_neg (by rw [h.1 c rfl]; exact Bool.false_ne_true)
  rw [trim_eq_rdropWhile, hfront, List.rdropWhile_eq_self_iff]
  intro hne
  rw [Bool.not_eq_true]
  exact h.2 _ (List.getLast?_eq_some_getLast hne)

theorem toList_strip (s : String) : (strip s).toList = trim isBlank s.toList :=
  String.toList_ofList

theorem strip_of_trimmed {s : String} (h : Trimmed isBlank s.toList) : strip s = s := by
  unfold strip
  rw [trim_of_trimmed h, String.ofList_toList]

end Yang.Text

import Yang.Proofs.Text.Separator

/-!
This module contains the lines of texts that are written line by line. The lines come back as they were when no line end
stands in them, wherever text is cut into lines: at line feeds only, or at all line ends.
-/

namespace Yang.Text

def Single (s : String) : Prop :=
  ∀ c ∈ s.toList, isLineEnd c = false

theorem single_of_all {s : String} (h : s.toList.all (fun c => !isLineEnd c) = true) : Single s := by
  intro c hc
  simpa using List.all_eq_true.1 h c hc

theorem single_append {s t : String} : Single (s ++ t) ↔ Single s ∧ Single t := by
  unfold Single
  rw [String.toList_append, List.forall_mem_append]

def written (lines : List String) : String :=
  String.join (lines.map (fun line => line ++ "\n"))

theorem toList_written_cons (line : String) (rest : List String) :
    (written (line :: rest)).toList = line.toList ++ '\n' :: (written rest).toList := by
  unfold written
  rw [String.toList_join, String.toList_join, List.map_cons, List.flatMap_cons, String.toList_append,
    List.append_assoc]
  rfl

theorem go_append {before line rest : List Char} (h : ∀ c ∈ line, isLineEnd c = false) :
    lines.go before (line ++ '\n' :: rest) = (before.reverse ++ line) :: lines.go [] rest := by
  induction line generalizing before with
  | nil =>
    rw [List.nil_append, List.append_nil, lines.go]
    · rfl
    · nofun
  | cons c more ih =>
    rw [List.forall_mem_cons] at h
    have hreturn : isLineEnd '\r' = true := by decide
    rw [List.cons_append, lines.go, if_neg (by rw [h.1]; exact Bool.false_ne_true), ih h.2, List.reverse_cons,
      List.append_assoc, List.singleton_append]
    rintro _ ⟨⟩
    rw [hreturn] at h
    cases h.1

theorem lines_written {bodies : List String} (h : ∀ line ∈ bodies, Single line) : lines (written bodies) = bodies := by
  unfold lines
  induction bodies with
  | nil => rfl
  | cons line rest ih =>
    rw [List.forall_mem_cons] at h
    rw [toList_written_cons, go_append h.1, List.map_cons, ih h.2, List.reverse_nil, List.nil_append,
      String.ofList_toList]

theorem splitAt_written {bodies : List String} (h : ∀ line ∈ bodies, '\n' ∉ line.toList) :
    splitAt '\n' (written bodies) = bodies ++ [""] := by
  have hparts : ∀ part ∈ bodies ++ [""], '\n' ∉ part.toList := by
    rw [List.forall_mem_append, List.forall_mem_singleton]
    exact ⟨h, List.not_mem_nil⟩
  rw [← splitAt_intercalate (by simp) hparts]
  congr 1
  clear h hparts
  induction bodies with
  | nil => rfl
  | cons line rest ih =>
    obtain ⟨first, more, heq⟩ :=
      List.exists_cons_of_ne_nil (List.append_ne_nil_of_right_ne_nil rest (List.cons_ne_nil "" []))
    rw [List.cons_append, heq, String.intercalate_cons_cons, ← heq, ← ih, ← String.toList_inj, toList_written_cons,
      String.toList_append, String.toList_append, List.append_assoc]
    rfl

theorem not_mem_of_single {s : String} (h : Single s) : '\n' ∉ s.toList := by
  intro hmem
  have hend := h _ hmem
  revert hend
  decide

theorem written_inj {bodies bodies' : List String} (h : ∀ line ∈ bodies, Single line)
    (h' : ∀ line ∈ bodies', Single line) (heq : written bodies = written bodies') : bodies = bodies' := by
  rw [← lines_written h, heq, lines_written h']

theorem single_of_mem_lines {s line : String} (h : line ∈ lines s) : Single line := by
  suffices ∀ before cs : List Char, (∀ c ∈ before, isLineEnd c = false) →
      ∀ cut ∈ lines.go before cs, ∀ c ∈ cut, isLineEnd c = false by
    obtain ⟨cut, hcut, rfl⟩ := List.mem_map.1 h
    unfold Single
    rw [String.toList_ofList]
    exact this [] s.toList (List.forall_mem_nil _) cut hcut
  intro before cs hbefore
  fun_induction lines.go before cs with
  | case1 line hempty => exact List.forall_mem_nil _
  | case2 line hempty =>
    rw [List.forall_mem_singleton]
    exact fun c hc => hbefore c (List.mem_reverse.1 hc)
  | case3 line rest ih =>
    rw [List.forall_mem_cons]
    exact ⟨fun c hc => hbefore c (List.mem_reverse.1 hc), ih (List.forall_mem_nil _)⟩
  | case4 line c rest _ hend ih =>
    rw [List.forall_mem_cons]
    exact ⟨fun c hc => hbefore c (List.mem_reverse.1 hc), ih (List.forall_mem_nil _)⟩
  | case5 line c rest _ hend ih =>
    apply ih
    rw [List.forall_mem_cons]
    exact ⟨by simpa using hend, hbefore⟩

end Yang.Text

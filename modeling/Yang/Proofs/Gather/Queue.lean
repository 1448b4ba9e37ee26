import Yang.Proofs.Gather.Closed

/-!
This module contains the queue of a gathering. Of the names that wait only those matter that have no scope and did not
come before: the next module is the first of them, and when there are none the names of all loaded modules wait again.
-/

namespace Yang.Gathering

def fresh (done : List String) : List String → List String
  | [] => []
  | name :: rest => if done.contains name then fresh done rest else name :: fresh (name :: done) rest

theorem fresh_cons (done : List String) (name : String) (rest : List String) :
    fresh done (name :: rest)
      = if done.contains name then fresh done rest else name :: fresh (name :: done) rest := rfl

theorem fresh_congr {done done' names : List String} (h : ∀ name ∈ names, name ∈ done ↔ name ∈ done') :
    fresh done names = fresh done' names := by
  induction names generalizing done done' with
  | nil => rfl
  | cons name rest ih =>
    rw [List.forall_mem_cons] at h
    rw [fresh_cons, fresh_cons]
    rw [List.contains_eq_mem, List.contains_eq_mem, decide_eq_decide.2 h.1, ih h.2]
    rw [@ih (name :: done) (name :: done')]
    intro other hother
    rw [List.mem_cons, List.mem_cons, h.2 other hother]

theorem fresh_append (done names more : List String) :
    fresh done (names ++ more) = fresh done names ++ fresh (names ++ done) more := by
  induction names generalizing done with
  | nil => rfl
  | cons name rest ih =>
    rw [List.cons_append, fresh_cons, fresh_cons]
    split
    · next hin =>
      rw [List.contains_eq_mem, decide_eq_true_eq] at hin
      rw [ih]
      congr 1
      apply fresh_congr
      intro other _
      rw [List.mem_append, List.cons_append, List.mem_cons, List.mem_append]
      constructor
      · exact .inr
      · rintro (rfl | h)
        · exact .inr hin
        · exact h
    · rw [ih, List.cons_append]
      congr 2
      apply fresh_congr
      intro other _
      simp only [List.mem_append, List.mem_cons, List.cons_append]
      tauto

theorem filter_fresh (p : String → Bool) (done names : List String) :
    (fresh done names).filter p = fresh done (names.filter p) := by
  induction names generalizing done with
  | nil => rfl
  | cons name rest ih =>
    rw [fresh_cons, List.filter_cons]
    cases hp : p name with
    | true =>
      rw [if_pos rfl, fresh_cons]
      split
      · exact ih done
      · rw [List.filter_cons, hp, if_pos rfl, ih]
    | false =>
      rw [if_neg Bool.false_ne_true]
      split
      · exact ih done
      · rw [List.filter_cons, hp, if_neg Bool.false_ne_true, ih]
        -- a name that is filtered out is not among those that are left
        apply fresh_congr
        intro other hother
        rw [List.mem_cons, or_iff_right]
        rintro rfl
        rw [List.mem_filter, hp] at hother
        cases hother.2

theorem fresh_eq_nil_iff {done names : List String} : fresh done names = [] ↔ ∀ name ∈ names, name ∈ done := by
  induction names with
  | nil => exact ⟨fun _ => List.forall_mem_nil _, fun _ => rfl⟩
  | cons name rest ih =>
    rw [List.forall_mem_cons, fresh_cons, List.contains_eq_mem]
    by_cases hin : name ∈ done
    · rw [decide_eq_true hin, if_pos rfl, ih]
      exact (and_iff_right hin).symm
    · rw [decide_eq_false hin, if_neg Bool.false_ne_true]
      exact ⟨nofun, fun h => absurd h.1 hin⟩

theorem mem_fresh_iff {done names : List String} {name : String} :
    name ∈ fresh done names ↔ name ∈ names ∧ name ∉ done := by
  induction names generalizing done with
  | nil => exact ⟨nofun, fun h => nomatch h.1⟩
  | cons first rest ih =>
    rw [fresh_cons, List.contains_eq_mem]
    by_cases hin : first ∈ done
    · rw [decide_eq_true hin, if_pos rfl, ih, List.mem_cons]
      constructor
      · exact fun h => ⟨.inr h.1, h.2⟩
      · rintro ⟨rfl | h, hnot⟩
        · exact absurd hin hnot
        · exact ⟨h, hnot⟩
    · rw [decide_eq_false hin, if_neg Bool.false_ne_true, List.mem_cons, ih, List.mem_cons, List.mem_cons]
      constructor
      · rintro (rfl | ⟨h, hnot⟩)
        · exact ⟨.inl rfl, hin⟩
        · exact ⟨.inr h, fun hd => hnot (.inr hd)⟩
      · rintro ⟨rfl | h, hnot⟩
        · exact .inl rfl
        · by_cases heq : name = first
          · exact .inl heq
          · exact .inr ⟨h, fun hd => hd.elim heq hnot⟩

theorem fresh_eq_eraseDups (done names : List String) :
    fresh done names = (names.filter fun name => !done.contains name).eraseDups := by
  induction names generalizing done with
  | nil => rfl
  | cons name rest ih =>
    rw [fresh_cons, List.filter_cons]
    cases hin : done.contains name with
    | true => exact ih done
    | false =>
      rw [if_neg Bool.false_ne_true, Bool.not_false, if_pos rfl, List.eraseDups_cons, List.filter_filter, ih]
      congr 2
      apply List.filter_congr
      intro other _
      rw [List.contains_cons, Bool.not_or]

def batch (store : Store) (scopes : Scopes) (needed : List String) : List String :=
  if fresh (scopedNames scopes) needed = [] then store.topLevel.map Module.name else needed

variable {files : Files} {store : Store} {scopes : Scopes} {needed : List String}

theorem nextNeeded_of_fresh_eq_nil (h : fresh (scopedNames scopes) needed = []) :
    nextNeeded store scopes needed = none := by
  rw [fresh_eq_nil_iff] at h
  induction needed with
  | nil => rfl
  | cons name rest ih =>
    rw [List.forall_mem_cons] at h
    unfold nextNeeded
    split
    · next m hm =>
      rw [(Store.module?_spec hm).2, List.contains_eq_mem, decide_eq_true h.1, if_pos rfl]
      exact ih h.2
    · exact ih h.2

structure Taken (store : Store) (scopes : Scopes) (names : List String) (main : Module) (rest : List String) :
    Prop where
  first : store.module? main.name = some main
  fresh : fresh (scopedNames scopes) names = main.name :: Gathering.fresh (main.name :: scopedNames scopes) rest
  left : ∀ name ∈ rest, name ∈ names
  passed : ∀ name ∈ names, name ∈ scopedNames scopes ∨ name = main.name ∨ name ∈ rest

theorem taken_nextNeeded {name : String} {more : List String} (hfound : ∀ n ∈ needed, (store.module? n).isSome = true)
    (h : fresh (scopedNames scopes) needed = name :: more) :
    ∃ main rest, nextNeeded store scopes needed = some (main, rest) ∧ main.name = name
      ∧ Taken store scopes needed main rest := by
  induction needed with
  | nil => cases h
  | cons first rest ih =>
    rw [List.forall_mem_cons] at hfound
    obtain ⟨m, hm⟩ := Option.isSome_iff_exists.1 hfound.1
    have hname := (Store.module?_spec hm).2
    unfold nextNeeded
    rw [hm]
    dsimp only
    rw [hname]
    rw [fresh_cons] at h
    split at h
    · next hin =>
      obtain ⟨main, left, hnext, hmain, htaken⟩ := ih hfound.2 h
      rw [if_pos hin]
      refine ⟨main, left, hnext, hmain, htaken.first, ?_, ?_, ?_⟩
      · rw [fresh_cons, if_pos hin]
        exact htaken.fresh
      · exact fun n hn => List.mem_cons_of_mem _ (htaken.left n hn)
      · rw [List.forall_mem_cons]
        rw [List.contains_eq_mem, decide_eq_true_eq] at hin
        exact ⟨.inl hin, htaken.passed⟩
    · next hnot =>
      cases h
      rw [if_neg hnot]
      refine ⟨m, rest, rfl, hname, ?_, ?_, ?_, ?_⟩
      · rw [hname]
        exact hm
      · rw [fresh_cons, if_neg hnot, hname]
      · exact fun n hn => List.mem_cons_of_mem _ hn
      · rw [List.forall_mem_cons, hname]
        exact ⟨.inr (.inl rfl), fun n hn => .inr (.inr hn)⟩

theorem found_batch (hfound : ∀ n ∈ needed, (store.module? n).isSome = true) :
    ∀ n ∈ batch store scopes needed, (store.module? n).isSome = true := by
  unfold batch
  split
  · exact fun n hn => Store.mem_names_topLevel_iff.1 hn
  · exact hfound

theorem next_eq_nextNeeded_batch (hfound : ∀ n ∈ needed, (store.module? n).isSome = true) :
    next store scopes needed = nextNeeded store scopes (batch store scopes needed) := by
  unfold next batch
  split
  · next h => rw [nextNeeded_of_fresh_eq_nil h, Option.none_or]
  · next h =>
    obtain ⟨name, more, hfresh⟩ := List.exists_cons_of_ne_nil h
    obtain ⟨main, rest, hnext, _⟩ := taken_nextNeeded hfound hfresh
    rw [hnext]
    rfl

theorem next_of_fresh_eq_cons (hfound : ∀ n ∈ needed, (store.module? n).isSome = true) {name : String}
    {more : List String} (h : fresh (scopedNames scopes) (batch store scopes needed) = name :: more) :
    ∃ main rest, next store scopes needed = some (main, rest) ∧ main.name = name
      ∧ Taken store scopes (batch store scopes needed) main rest := by
  rw [next_eq_nextNeeded_batch hfound]
  exact taken_nextNeeded (found_batch hfound) h

theorem next_of_fresh_eq_nil (hfound : ∀ n ∈ needed, (store.module? n).isSome = true)
    (h : fresh (scopedNames scopes) (batch store scopes needed) = []) : next store scopes needed = none := by
  rw [next_eq_nextNeeded_batch hfound]
  exact nextNeeded_of_fresh_eq_nil h

theorem taken_of_next (hfound : ∀ n ∈ needed, (store.module? n).isSome = true) {main : Module} {rest : List String}
    (h : next store scopes needed = some (main, rest)) :
    Taken store scopes (batch store scopes needed) main rest := by
  cases hfresh : fresh (scopedNames scopes) (batch store scopes needed) with
  | nil =>
    rw [next_of_fresh_eq_nil hfound hfresh] at h
    cases h
  | cons name more =>
    obtain ⟨main', rest', hnext, _, htaken⟩ := next_of_fresh_eq_cons hfound hfresh
    rw [h] at hnext
    cases hnext
    exact htaken

theorem fresh_of_next_eq_none (hfound : ∀ n ∈ needed, (store.module? n).isSome = true)
    (h : next store scopes needed = none) : fresh (scopedNames scopes) (batch store scopes needed) = [] := by
  cases hfresh : fresh (scopedNames scopes) (batch store scopes needed) with
  | nil => rfl
  | cons name more =>
    obtain ⟨_, _, hnext, _⟩ := next_of_fresh_eq_cons hfound hfresh
    rw [h] at hnext
    cases hnext

theorem fresh_batch_of_ne_nil (h : fresh (scopedNames scopes) needed ≠ []) : batch store scopes needed = needed :=
  if_neg h

theorem fresh_batch_of_eq_nil (h : fresh (scopedNames scopes) needed = []) :
    batch store scopes needed = store.topLevel.map Module.name :=
  if_pos h

theorem runs_of_topLevel {g g' : Gathering} {final : Scopes}
    (h : Runs files [] (g.store.topLevel.map Module.name) g final g') : Runs files [] [] g final g' := by
  have hnext : next g.store [] [] = next g.store [] (g.store.topLevel.map Module.name) := by
    unfold next
    rw [Option.or_self]
    rfl
  cases h with
  | done hnone => exact .done (hnext.trans hnone)
  | scope hsome more => exact .scope (hnext.trans hsome) more

end Yang.Gathering

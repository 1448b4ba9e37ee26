import Yang.Proofs.Entry.Regrow

/-!
This module contains trees that gain entries: no entry that was there goes, moves or changes in anything but its
children, which stay in front of the new ones. Whatever is found in a tree is found in the same place when it has
gained.
-/

namespace Yang.Entry

inductive Gains : List Entry → List Entry → Prop
  | new (entries : List Entry) : Gains [] entries
  | cons {head : EntryHead} {children children' rest rest' : List Entry} (hchildren : Gains children children')
    (hrest : Gains rest rest') : Gains (mk head children :: rest) (mk head children' :: rest')

variable {entries entries' entries'' : List Entry} {e d : Entry} {n : String} {names : List String}

theorem Gains.refl (entries : List Entry) : Gains entries entries := by
  match entries with
  | [] => exact .new []
  | mk head children :: rest => exact .cons (refl children) (refl rest)
termination_by sizeOf entries

theorem Gains.trans (h : Gains entries entries') (h' : Gains entries' entries'') : Gains entries entries'' := by
  induction h generalizing entries'' with
  | new => exact .new _
  | cons _ _ ihchildren ihrest =>
    cases h' with
    | cons hchildren hrest => exact .cons (ihchildren hchildren) (ihrest hrest)

theorem gains_append (entries more : List Entry) : Gains entries (entries ++ more) := by
  induction entries with
  | nil => exact .new more
  | cons e rest ih =>
    obtain ⟨head, children⟩ := e
    exact .cons (.refl children) ih

theorem gains_middle {before after : List Entry} (hhead : e.head = d.head) (h : Gains e.children d.children) :
    Gains (before ++ e :: after) (before ++ d :: after) := by
  induction before with
  | nil =>
    obtain ⟨head, children⟩ := e
    obtain ⟨head', children'⟩ := d
    cases hhead
    exact .cons h (.refl after)
  | cons first rest ih =>
    obtain ⟨head, children⟩ := first
    exact .cons (.refl children) ih

theorem Gains.named? (h : Gains entries entries') (he : named? n entries = some e) :
    ∃ e', Entry.named? n entries' = some e' ∧ e.head = e'.head ∧ Gains e.children e'.children := by
  induction h with
  | new => cases he
  | @cons head children children' rest rest' hchildren _ _ ih =>
    unfold Entry.named? at he ih ⊢
    rw [List.find?_cons] at he ⊢
    have hname : (mk head children').name = (mk head children).name := rfl
    rw [hname]
    split at he
    · cases he
      exact ⟨_, rfl, rfl, hchildren⟩
    · exact ih he

theorem gains_regrowIn {grown : List Entry} (he : named? n entries = some e) (hd : e.descend? names = some d)
    (h : Gains d.children grown) : Gains entries (regrowIn grown n names entries) := by
  induction names generalizing entries n e with
  | nil =>
    obtain ⟨before, after, heq, _, hgrown⟩ := regrowIn_eq_of_named? grown [] he
    rw [hgrown, heq]
    cases hd
    obtain ⟨head, children⟩ := d
    rw [regrow]
    exact gains_middle rfl h
  | cons name rest ih =>
    obtain ⟨before, after, heq, _, hgrown⟩ := regrowIn_eq_of_named? grown (name :: rest) he
    rw [hgrown, heq]
    obtain ⟨c, hc, hrest⟩ := Option.bind_eq_some_iff.1 hd
    obtain ⟨head, children⟩ := e
    rw [regrow]
    exact gains_middle rfl (ih hc hrest)

end Yang.Entry

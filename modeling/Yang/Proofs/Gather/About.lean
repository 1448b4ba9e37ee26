import Yang.Proofs.Gather.Alike
import Yang.Proofs.Gather.Findings
import Yang.Proofs.Tree.About

/-!
This module contains the findings of some sort among the problems of a gathering: a lookup adds none, and a check of
names adds one for every name that is taken.
-/

namespace Yang

theorem Diagnostic.isAbout_of_isFinding_eq_false {d : Diagnostic} (h : d.isFinding = false) (p : Finding → Bool) :
    d.isAbout p = false := by
  unfold isFinding at h
  unfold isAbout
  split
  · next heq =>
    rw [heq] at h
    cases h
  · rfl

namespace Gathering

def about (p : Finding → Bool) (g : Gathering) : List Diagnostic :=
  g.problems.filter (Diagnostic.isAbout p)

variable {p : Finding → Bool}

theorem about_report (g : Gathering) (context : Context) (finding : Finding) :
    (g.report (context.problem finding)).about p
      = g.about p ++ ((some finding).filter p).toList.map context.problem := by
  unfold about report
  rw [List.filter_append, List.filter_singleton, Bool.cond_eq_ite]
  rw [show (context.problem finding).isAbout p = p finding from rfl, Option.filter_some]
  cases p finding <;> rfl

theorem about_look {α : Type} (get : Store → String → Option α) (files : Files) (name : String) (g : Gathering) :
    (g.look (Store.find get) files name).2.about p = g.about p := by
  unfold look
  split
  · rfl
  · split
    · rfl
    · next heq =>
      have hfinding := Store.isFinding_of_find (congrArg Prod.fst heq)
      unfold about report
      rw [List.filter_append, List.filter_cons_of_neg, List.filter_nil, List.append_nil]
      rw [Diagnostic.isAbout_of_isFinding_eq_false hfinding]
      exact Bool.false_ne_true
    · rfl

end Gathering

end Yang

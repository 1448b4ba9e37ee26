import Yang.Proofs.Scope.Alike
import Yang.Proofs.Typing.Meaning

/-!
This module contains the resolution of types in scopes that are alike and have the same derived types: it has the same
result, and finds the same problems in the same order.
-/

namespace Yang

variable {exact : Prop} {r : Document → Document → Prop}

theorem Context.Alike.report_eq (hl : Likeness exact r) {context context' : Context} (h : context.Alike r context')
    (w : Work) (finding : Finding) : w.report context finding = w.report context' finding := by
  unfold Work.report
  rw [Context.problem_eq (hl.outline h.document)]

theorem Context.Alike.reportAll_eq (hl : Likeness exact r) {context context' : Context} (h : context.Alike r context')
    (w : Work) (findings : List Finding) : w.reportAll context findings = w.reportAll context' findings := by
  unfold Work.reportAll
  rw [Context.problem_eq (hl.outline h.document)]

namespace Scopes

variable {scopes scopes' : Scopes}

theorem typing_alike (hl : Likeness exact r) (ht : Corresponds Typedef (fun _ => Eq) r)
    (hs : List.Forall₂ (Scope.Alike r) scopes scopes') (w : Work) :
    (∀ inside context reference declared, ∀ context', context.Alike r context' →
      scopes.typeOf inside context reference declared w = scopes'.typeOf inside context' reference declared w)
    ∧ ∀ inside found isThere, ∀ found' isThere', found.Alike (fun _ => Eq) r found' →
      scopes.typeOfTypedef inside found isThere w = scopes'.typeOfTypedef inside found' isThere' w := by
  apply typeOf.mutual_induct scopes w
    (fun inside context reference declared => ∀ context', context.Alike r context' →
      scopes.typeOf inside context reference declared w = scopes'.typeOf inside context' reference declared w)
    (fun inside found isThere => ∀ found' isThere', found.Alike (fun _ => Eq) r found' →
      scopes.typeOfTypedef inside found isThere w = scopes'.typeOfTypedef inside found' isThere' w)
  · intro inside context reference declared hb context' _
    rw [typeOf_builtin hb, typeOf_builtin hb]
  · intro inside context reference declared hb finding hfinding context' hcontext
    rw [Bool.not_eq_true] at hb
    rcases resolve_alike hl ht hs hcontext reference with ⟨finding', h, h'⟩ | ⟨l, _, h, _⟩
    · rw [typeOf_of_resolve_eq_error hb h, typeOf_of_resolve_eq_error hb h', hcontext.report_eq hl]
    · rw [hfinding] at h
      cases h
  · intro inside context reference declared hb found hfound base w' _ ih context' hcontext
    rw [Bool.not_eq_true] at hb
    rcases resolve_alike hl ht hs hcontext reference with ⟨_, h, _⟩ | ⟨l, l', h, h', hfound'⟩
    · rw [hfound] at h
      cases h
    · rw [hfound] at h
      cases h
      rw [typeOf_of_resolve_eq_ok hb hfound, typeOf_of_resolve_eq_ok hb h',
        ih l' (mem_definitions_of_resolve h') hfound']
  · intro inside found isThere known hknown found' isThere' hfound
    rw [typeOfTypedef, typeOfTypedef, ← hfound.key_eq ht, hknown]
  · intro inside found isThere hnew hin found' isThere' hfound
    rw [typeOfTypedef, typeOfTypedef, ← hfound.key_eq ht, hnew]
    dsimp only
    rw [dif_pos hin, dif_pos hin, hfound.context.report_eq hl, hfound.definition]
  · intro inside found isThere hnew hout inner w' _ ih found' isThere' hfound
    have hinner := ih found'.context hfound.context
    rw [typeOfTypedef, typeOfTypedef, ← hfound.key_eq ht, hnew]
    dsimp only
    rw [dif_neg hout, dif_neg hout, hinner, hfound.definition]

end Scopes

end Yang

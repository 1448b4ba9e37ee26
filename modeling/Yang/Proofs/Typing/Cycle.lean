import Mathlib.Logic.Relation
import Yang.Proofs.Typing.Way

/-!
This module contains the graph of derived types, in which a derived type refers to at most one other. So whatever leads
away from a type on a cycle stays on the cycle.
-/

namespace Yang

namespace Scopes

def Refers (scopes : Scopes) (l next : Located Typedef) : Prop :=
  isBuiltin l.definition.type = false ∧ scopes.Selects l.context l.definition.type next

abbrev Leads (scopes : Scopes) : Located Typedef → Located Typedef → Prop :=
  Relation.TransGen scopes.Refers

variable {scopes : Scopes} {l k other : Located Typedef}

theorem Coherent.refers_iff (hc : scopes.Coherent) : scopes.Refers l k
    ↔ isBuiltin l.definition.type = false ∧ scopes.resolve l.context l.definition.type = .ok k := by
  unfold Refers
  rw [hc.selects_iff]

theorem Coherent.refers_unique (hc : scopes.Coherent) (h : scopes.Refers l k) (h' : scopes.Refers l other) :
    k = other :=
  hc.selects_unique h.2 h'.2

theorem Refers.holds (hc : scopes.Coherent) (h : scopes.Refers l k) : scopes.Holds k :=
  hc.holds_of_resolve (hc.selects_iff.1 h.2)

theorem Leads.holds (hc : scopes.Coherent) (h : scopes.Leads l k) : scopes.Holds k := by
  cases h with
  | single h => exact h.holds hc
  | tail _ h => exact h.holds hc

theorem Leads.next (hc : scopes.Coherent) (h : scopes.Leads l k) (hrefers : scopes.Refers l other) :
    other = k ∨ scopes.Leads other k := by
  rcases Relation.TransGen.head'_iff.1 h with ⟨first, hfirst, hrest⟩
  rw [hc.refers_unique hrefers hfirst]
  exact Relation.reflTransGen_iff_eq_or_transGen.1 hrest |>.imp_left Eq.symm

theorem Leads.back (hc : scopes.Coherent) (hloop : scopes.Leads l l) (h : scopes.Leads l k) : scopes.Leads k l := by
  induction h with
  | single h =>
    rcases Leads.next hc hloop h with rfl | hback
    · exact hloop
    · exact hback
  | tail _ h ih =>
    rcases Leads.next hc ih h with rfl | hback
    · exact hloop
    · exact hback

theorem leads_of_meets (h : scopes.Meets l.context l.definition.type k) : scopes.Leads l k := by
  induction h with
  | here h hselects => exact .single ⟨h, hselects⟩
  | later _ h hselects ih => exact ih.tail ⟨h, hselects⟩

theorem exists_way_of_forall (hc : scopes.Coherent) (hl : scopes.Holds l)
    (hloop : ∀ k, scopes.Holds k → ¬ scopes.Leads k k)
    (hdangles : ∀ k : Located Typedef, scopes.Holds k → ¬ scopes.Dangles k.context k.definition.type) :
    ∃ hops base, scopes.Way l.context l.definition.type hops base := by
  rw [exists_way_iff hc]
  rintro (hself | ⟨k, hmeets, hk⟩ | ⟨k, hmeets, hk⟩)
  · exact hdangles l hl hself
  · exact hdangles k ((leads_of_meets hmeets).holds hc) hk
  · exact hloop k ((leads_of_meets hmeets).holds hc) (leads_of_meets hk)

end Scopes

end Yang

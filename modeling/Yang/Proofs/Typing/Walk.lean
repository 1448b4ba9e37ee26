import Yang.Proofs.Tree.About
import Yang.Proofs.Typing.Cycle

/-!
This module contains the walk of a resolution from one derived type to the next. It goes on to types that nothing is
remembered of, and it ends at one that something is remembered of, at one whose reference leads to no other, or back at
one that it came from. Something is remembered of all types on it in the end.
-/

namespace Yang

def Finding.isAboutType : Finding → Bool
  | recursive .typedef _ => true
  | unknownPrefix _ .typedef _ => true
  | unknownName .typedef _ => true
  | _ => false

def Located.recursion (l : Located Typedef) : Diagnostic :=
  l.context.problem (.recursive .typedef l.definition.name)

def Context.unresolved (context : Context) (reference : String) : Finding :=
  let r := Reference.ofText reference
  if (context.moduleOf? r.prefixId).isSome then .unknownName .typedef reference
  else .unknownPrefix (r.prefixId.getD "") .typedef reference

namespace Work

def isSettled (w : Work) (l : Located Typedef) : Bool :=
  (w.types.lookup l.key).isSome

theorem isSettled_eq_false_iff {w : Work} {l : Located Typedef} :
    w.isSettled l = false ↔ w.types.lookup l.key = none := by
  unfold isSettled
  rw [Option.isSome_eq_false_iff, Option.isNone_iff_eq_none]

theorem isSettled_remember (w : Work) (key : DefinitionKey) (type : Option ResolvedType) (l : Located Typedef) :
    (w.remember key type).isSettled l = true ↔ w.isSettled l = true ∨ l.key = key := by
  unfold isSettled
  rw [lookup_remember]
  split
  · next heq => simp [heq]
  · next hne => simp [hne]

end Work

namespace Scopes

def complaint? (scopes : Scopes) (context : Context) (reference : String) : Option Diagnostic :=
  if isBuiltin reference then none
  else
    match (scopes.resolve context reference : Except Finding (Located Typedef)) with
    | .error finding => some (context.problem finding)
    | .ok _ => none

def complaintOf? (scopes : Scopes) (l : Located Typedef) : Option Diagnostic :=
  scopes.complaint? l.context l.definition.type

inductive Walks (scopes : Scopes) (w : Work) :
    List DefinitionKey → Located Typedef → List (Located Typedef) → Option (Located Typedef) → Prop
  | known {inside l} (h : w.isSettled l = true) : Walks scopes w inside l [] none
  | again {inside l} (hnew : w.isSettled l = false) (hin : l.key ∈ inside) : Walks scopes w inside l [] (some l)
  | last {inside l} (hnew : w.isSettled l = false) (hout : l.key ∉ inside) (hlast : ∀ k, ¬ scopes.Refers l k) :
    Walks scopes w inside l [l] none
  | next {inside l k path again} (hnew : w.isSettled l = false) (hout : l.key ∉ inside) (hrefers : scopes.Refers l k)
    (hrest : Walks scopes w (l.key :: inside) k path again) : Walks scopes w inside l (l :: path) again

structure Records (scopes : Scopes) (w : Work) (path : List (Located Typedef)) (again : Option (Located Typedef))
    (w' : Work) : Prop where
  problems : w'.about Finding.isAboutType
    = w.about Finding.isAboutType ++ (path.filterMap scopes.complaintOf? ++ again.toList.map Located.recursion)
  settled : ∀ l, w'.isSettled l = true ↔ w.isSettled l = true ∨ l.key ∈ (again.toList ++ path).map Located.key

variable {scopes : Scopes} {w w' : Work} {context : Context} {reference : String} {l k r : Located Typedef}
  {inside : List DefinitionKey} {path : List (Located Typedef)} {again : Option (Located Typedef)}

theorem complaint?_of_isBuiltin (hb : isBuiltin reference = true) : scopes.complaint? context reference = none := by
  unfold complaint?
  rw [if_pos hb]

theorem complaint?_of_resolve_eq_ok (h : scopes.resolve context reference = .ok l) :
    scopes.complaint? context reference = none := by
  unfold complaint?
  rw [h]
  exact ite_self _

theorem complaint?_of_resolve_eq_error (hb : isBuiltin reference = false) {finding : Finding}
    (h : (scopes.resolve context reference : Except Finding (Located Typedef)) = .error finding) :
    scopes.complaint? context reference = some (context.problem finding) := by
  unfold complaint?
  rw [hb, if_neg Bool.false_ne_true, h]

theorem Coherent.complaint?_eq_some_iff (hc : scopes.Coherent) {d : Diagnostic} :
    scopes.complaint? context reference = some d
      ↔ scopes.Dangles context reference ∧ d = context.problem (context.unresolved reference) := by
  unfold Dangles
  simp only [hc.selects_iff]
  cases hb : isBuiltin reference with
  | true => simp [complaint?_of_isBuiltin hb]
  | false =>
    cases h : (scopes.resolve context reference : Except Finding (Located Typedef)) with
    | ok l => simp [complaint?_of_resolve_eq_ok h]
    | error finding =>
      have hfinding : finding = context.unresolved reference := by
        unfold Context.unresolved
        dsimp only
        rcases resolve_eq_error h with ⟨hnone, rfl⟩ | ⟨hsome, rfl⟩
        · rw [hnone, Option.isSome_none, if_neg Bool.false_ne_true]
          rfl
        · rw [if_pos hsome]
          rfl
      rw [complaint?_of_resolve_eq_error hb h, hfinding]
      simp [eq_comm]

theorem isAboutType_of_resolve {finding : Finding}
    (h : (scopes.resolve context reference : Except Finding (Located Typedef)) = .error finding) :
    finding.isAboutType = true := by
  rcases resolve_eq_error h with ⟨_, rfl⟩ | ⟨_, rfl⟩ <;> rfl

theorem complaintOf?_of_refers (hc : scopes.Coherent) (h : scopes.Refers l k) : scopes.complaintOf? l = none :=
  complaint?_of_resolve_eq_ok (hc.refers_iff.1 h).2

theorem records_known (scopes : Scopes) (w : Work) : Records scopes w [] none w where
  problems := (List.append_nil _).symm
  settled := by simp

theorem records_again (scopes : Scopes) (w : Work) (l : Located Typedef) :
    Records scopes w [] (some l)
      ((w.report l.context (.recursive .typedef l.definition.name)).remember l.key none) where
  problems := by
    rw [Work.about_remember, Work.about_report_of_eq_true _ _ rfl]
    rfl
  settled := by
    intro k
    rw [Work.isSettled_remember]
    simp [Work.isSettled, Work.report]

theorem records_last (htypes : w'.types = w.types)
    (hproblems : w'.about Finding.isAboutType = w.about Finding.isAboutType ++ (scopes.complaintOf? l).toList)
    (type : Option ResolvedType) : Records scopes w [l] none (w'.remember l.key type) where
  problems := by
    rw [Work.about_remember, hproblems, List.filterMap_cons]
    cases scopes.complaintOf? l <;> rfl
  settled := by
    intro k
    rw [Work.isSettled_remember]
    unfold Work.isSettled
    rw [htypes]
    simp

theorem Records.next (h : Records scopes w path again w') (hl : scopes.complaintOf? l = none)
    (type : Option ResolvedType) : Records scopes w (l :: path) again (w'.remember l.key type) where
  problems := by
    rw [Work.about_remember, h.problems, List.filterMap_cons, hl]
  settled := by
    intro k
    rw [Work.isSettled_remember, h.settled]
    simp only [List.map_append, List.mem_append, List.map_cons, List.mem_cons]
    rw [or_assoc, or_assoc, or_comm (a := k.key ∈ path.map Located.key)]

theorem typeOf_of_forall_ne (h : ∀ l : Located Typedef, isBuiltin reference = false →
      scopes.resolve context reference ≠ .ok l) (inside : List DefinitionKey) (declared : Restrictions) (w : Work) :
    (scopes.typeOf inside context reference declared w).2.types = w.types
      ∧ (scopes.typeOf inside context reference declared w).2.about Finding.isAboutType
        = w.about Finding.isAboutType ++ (scopes.complaint? context reference).toList := by
  cases hb : isBuiltin reference with
  | true =>
    rw [typeOf_builtin hb, complaint?_of_isBuiltin hb]
    exact ⟨rfl, (List.append_nil _).symm⟩
  | false =>
    cases hresolve : (scopes.resolve context reference : Except Finding (Located Typedef)) with
    | ok l => exact absurd hresolve (h l hb)
    | error finding =>
      rw [typeOf_of_resolve_eq_error hb hresolve, complaint?_of_resolve_eq_error hb hresolve]
      exact ⟨rfl, w.about_report_of_eq_true context (isAboutType_of_resolve hresolve)⟩

theorem walks_typing (hc : scopes.Coherent) (w : Work) :
    (∀ inside context reference declared, ∀ l, isBuiltin reference = false → scopes.resolve context reference = .ok l →
      ∃ path again, Walks scopes w inside l path again
        ∧ Records scopes w path again (scopes.typeOf inside context reference declared w).2)
    ∧ ∀ inside l isThere, ∃ path again, Walks scopes w inside l path again
        ∧ Records scopes w path again (scopes.typeOfTypedef inside l isThere w).2 := by
  -- the work only changes when the recursion unwinds, so all of a walk is in the same state of the work
  apply typeOf.mutual_induct scopes w
    (fun inside context reference declared => ∀ l, isBuiltin reference = false →
      scopes.resolve context reference = .ok l → ∃ path again, Walks scopes w inside l path again
        ∧ Records scopes w path again (scopes.typeOf inside context reference declared w).2)
    (fun inside l isThere => ∃ path again, Walks scopes w inside l path again
      ∧ Records scopes w path again (scopes.typeOfTypedef inside l isThere w).2)
  · intro inside context reference declared hb l hnot
    rw [hb] at hnot
    cases hnot
  · intro inside context reference declared _ finding hfinding l _ hl
    rw [hfinding] at hl
    cases hl
  · intro inside context reference declared _ found hfound base w' _ ih l hb hl
    rw [typeOf_of_resolve_eq_ok hb hfound]
    rw [hfound] at hl
    cases hl
    exact ih
  · intro inside l isThere known hknown
    rw [typeOfTypedef, hknown]
    refine ⟨[], none, .known ?_, records_known scopes w⟩
    unfold Work.isSettled
    rw [hknown, Option.isSome_some]
  · intro inside l isThere hnew hin
    rw [typeOfTypedef, hnew]
    dsimp only
    rw [dif_pos hin]
    exact ⟨[], some l, .again (Work.isSettled_eq_false_iff.2 hnew) (by simpa using hin), records_again scopes w l⟩
  · intro inside l isThere hnew hin inner w' _ ih
    rw [typeOfTypedef, hnew]
    dsimp only
    rw [dif_neg hin]
    have hsettled := Work.isSettled_eq_false_iff.2 hnew
    have hout : l.key ∉ inside := by simpa using hin
    by_cases hrefers : ∃ k, scopes.Refers l k
    · obtain ⟨k, hk⟩ := hrefers
      obtain ⟨hb, hresolve⟩ := hc.refers_iff.1 hk
      obtain ⟨path, again, hwalks, hrecords⟩ := ih k hb hresolve
      exact ⟨l :: path, again, .next hsettled hout hk hwalks,
        hrecords.next (complaintOf?_of_refers hc hk) _⟩
    · have hnone : ∀ k : Located Typedef, isBuiltin l.definition.type = false →
          scopes.resolve l.context l.definition.type ≠ .ok k := by
        intro k hb hresolve
        exact hrefers ⟨k, hc.refers_iff.2 ⟨hb, hresolve⟩⟩
      obtain ⟨htypes, hproblems⟩ := typeOf_of_forall_ne hnone (l.key :: inside) l.definition.restrictions w
      exact ⟨[l], none, .last hsettled hout (not_exists.1 hrefers), records_last htypes hproblems _⟩

end Scopes

end Yang

import Yang.Proofs.Scope.Coherent
import Yang.Tree.Typing

/-!
This module contains what references to types stand for, without any memory of earlier resolutions, and the proof that
resolution finds it out, whatever it remembers and whatever it is inside of.
-/

namespace Yang

namespace Scopes

inductive Denotes (scopes : Scopes) : Context → String → Restrictions → ResolvedType → Prop
  | builtin {context : Context} {reference : String} {declared : Restrictions}
    (h : isBuiltin reference = true) :
    Denotes scopes context reference declared ((ResolvedType.builtin reference).restrict declared)
  | derived {context : Context} {reference : String} {declared : Restrictions} {found : Located Typedef}
    {inner : ResolvedType} (h : isBuiltin reference = false)
    (hfound : scopes.resolve context reference = .ok found)
    (hinner : Denotes scopes found.context found.definition.type found.definition.restrictions inner) :
    Denotes scopes context reference declared
      (((inner.derived found.definition).referred reference).restrict declared)

def Defines (scopes : Scopes) (l : Located Typedef) (type : ResolvedType) : Prop :=
  ∃ inner, scopes.Denotes l.context l.definition.type l.definition.restrictions inner
    ∧ type = inner.derived l.definition

variable {scopes : Scopes} {context : Context} {reference : String} {declared : Restrictions}

theorem Denotes.unique {type other : ResolvedType} (h : scopes.Denotes context reference declared type)
    (h' : scopes.Denotes context reference declared other) : type = other := by
  induction h generalizing other with
  | builtin hb =>
    cases h' with
    | builtin => rfl
    | derived hb' => rw [hb] at hb'; cases hb'
  | derived hb hfound _ ih =>
    cases h' with
    | builtin hb' => rw [hb] at hb'; cases hb'
    | derived _ hfound' hinner' =>
      rw [hfound] at hfound'
      cases hfound'
      rw [ih hinner']

theorem Defines.unique {l : Located Typedef} {type other : ResolvedType} (h : scopes.Defines l type)
    (h' : scopes.Defines l other) : type = other := by
  obtain ⟨inner, hinner, rfl⟩ := h
  obtain ⟨inner', hinner', rfl⟩ := h'
  rw [hinner.unique hinner']

theorem denotes_iff_of_isBuiltin (h : isBuiltin reference = true) (type : ResolvedType) :
    scopes.Denotes context reference declared type
      ↔ (ResolvedType.builtin reference).restrict declared = type := by
  constructor
  · intro hd
    exact (Denotes.builtin h).unique hd
  · rintro rfl
    exact .builtin h

theorem not_denotes_of_resolve_eq_error (h : isBuiltin reference = false) {finding : Finding}
    (herror : (scopes.resolve context reference : Except Finding (Located Typedef)) = .error finding)
    (type : ResolvedType) : ¬ scopes.Denotes context reference declared type := by
  intro hd
  cases hd with
  | builtin hb => rw [h] at hb; cases hb
  | derived _ hfound => rw [herror] at hfound; cases hfound

theorem denotes_iff_of_resolve_eq_ok (h : isBuiltin reference = false) {found : Located Typedef}
    (hfound : scopes.resolve context reference = .ok found) (type : ResolvedType) :
    scopes.Denotes context reference declared type
      ↔ ∃ defined, scopes.Defines found defined ∧ (defined.referred reference).restrict declared = type := by
  constructor
  · intro hd
    cases hd with
    | builtin hb => rw [h] at hb; cases hb
    | derived _ hfound' hinner =>
      rw [hfound] at hfound'
      cases hfound'
      exact ⟨_, ⟨_, hinner, rfl⟩, rfl⟩
  · rintro ⟨_, ⟨inner, hinner, rfl⟩, rfl⟩
    exact .derived h hfound hinner

def LeadsTo (scopes : Scopes) (inside : List DefinitionKey) (p : ResolvedType → Prop) : Prop :=
  ∀ l, scopes.Holds l → inside.contains l.key = true → ∀ type, scopes.Defines l type →
    ∃ inner, p inner ∧ inner.typedefs.length < type.typedefs.length

theorem leadsTo_nil (p : ResolvedType → Prop) : scopes.LeadsTo [] p := by
  intro l _ h
  cases h

theorem LeadsTo.defines {inside : List DefinitionKey} {found : Located Typedef}
    (h : isBuiltin reference = false) (hfound : scopes.resolve context reference = .ok found)
    (hl : scopes.LeadsTo inside (scopes.Denotes context reference declared)) :
    scopes.LeadsTo inside (scopes.Defines found) := by
  intro l hholds hin type hdefines
  obtain ⟨inner, hinner, hlt⟩ := hl l hholds hin type hdefines
  obtain ⟨defined, hdefined, rfl⟩ := (denotes_iff_of_resolve_eq_ok h hfound inner).1 hinner
  refine ⟨defined, hdefined, ?_⟩
  obtain ⟨_, _, rfl⟩ := hdefined
  simpa [ResolvedType.restrict, ResolvedType.referred, ResolvedType.derived] using hlt

theorem LeadsTo.enter {inside : List DefinitionKey} {found : Located Typedef} (hfound : scopes.Holds found)
    (hl : scopes.LeadsTo inside (scopes.Defines found)) :
    scopes.LeadsTo (found.key :: inside)
      (scopes.Denotes found.context found.definition.type found.definition.restrictions) := by
  intro l hholds hin type hdefines
  rw [List.contains_cons, Bool.or_eq_true] at hin
  rcases hin with heq | hin
  · have hl : l = found := hholds.eq_of_key_eq hfound (eq_of_beq heq)
    subst hl
    obtain ⟨inner, hinner, rfl⟩ := hdefines
    exact ⟨inner, hinner, by simp [ResolvedType.derived]⟩
  · obtain ⟨defined, ⟨inner, hinner, rfl⟩, hlt⟩ := hl l hholds hin type hdefines
    refine ⟨inner, hinner, ?_⟩
    simp only [ResolvedType.derived, List.length_cons] at hlt
    omega

theorem LeadsTo.not_defines {inside : List DefinitionKey} {found : Located Typedef} (hfound : scopes.Holds found)
    (hl : scopes.LeadsTo inside (scopes.Defines found)) (hin : inside.contains found.key = true)
    (type : ResolvedType) : ¬ scopes.Defines found type := by
  intro hdefines
  obtain ⟨inner, hinner, hlt⟩ := hl found hfound hin type hdefines
  rw [hinner.unique hdefines] at hlt
  omega

end Scopes

structure Work.Faithful (scopes : Scopes) (w : Work) : Prop where
  known : ∀ l, scopes.Holds l → ∀ result, w.types.lookup l.key = some result →
    ∀ type, result = some type ↔ scopes.Defines l type
  failed : ∀ key, w.types.lookup key = some none → w.problems ≠ []

theorem Work.faithful_empty (scopes : Scopes) : Work.empty.Faithful scopes where
  known := fun _ _ _ h => nomatch h
  failed := fun _ h => nomatch h

theorem Work.Faithful.of_problems {scopes : Scopes} {w w' : Work} (h : w.Faithful scopes)
    (htypes : w'.types = w.types) (hproblems : w.problems <+: w'.problems) : w'.Faithful scopes where
  known := by
    rw [htypes]
    exact h.known
  failed := by
    intro key hkey hnil
    rw [htypes] at hkey
    apply h.failed key hkey
    rw [hnil] at hproblems
    exact List.prefix_nil.1 hproblems

theorem Work.problems_report_ne_nil (w : Work) (context : Context) (finding : Finding) :
    (w.report context finding).problems ≠ [] := by
  simp [Work.report]

theorem Work.problems_ne_nil_of_report {w w' : Work} {context : Context} {finding : Finding}
    (hlater : (w.report context finding).problems <+: w'.problems) : w'.problems ≠ [] := by
  intro hnil
  rw [hnil, List.prefix_nil] at hlater
  exact w.problems_report_ne_nil context finding hlater

theorem Work.Faithful.report {scopes : Scopes} {w : Work} (h : w.Faithful scopes) (context : Context)
    (finding : Finding) : (w.report context finding).Faithful scopes :=
  h.of_problems rfl (List.prefix_append _ _)

theorem Work.Faithful.reportAll {scopes : Scopes} {w : Work} (h : w.Faithful scopes) (context : Context)
    (findings : List Finding) : (w.reportAll context findings).Faithful scopes :=
  h.of_problems rfl (List.prefix_append _ _)

theorem Work.Faithful.note {scopes : Scopes} {w : Work} (h : w.Faithful scopes) (n : Note) :
    (w.note n).Faithful scopes :=
  h.of_problems rfl (List.prefix_refl _)

theorem Work.lookup_remember (w : Work) (key other : DefinitionKey) (type : Option ResolvedType) :
    (w.remember key type).types.lookup other
      = if other = key then some ((w.types.lookup key).getD type) else w.types.lookup other := by
  unfold Work.remember
  split
  · next h =>
    obtain ⟨known, hknown⟩ := Option.isSome_iff_exists.1 h
    split
    · next heq => rw [heq, hknown, Option.getD_some]
    · rfl
  · next h =>
    have hnone : w.types.lookup key = none := by
      rwa [Bool.not_eq_true, Option.isSome_eq_false_iff, Option.isNone_iff_eq_none] at h
    dsimp only
    rw [List.lookup_append]
    split
    · next heq => rw [heq, hnone]; simp
    · next hne => simp [List.lookup_cons, beq_eq_false_iff_ne.2 hne]

theorem Work.problems_remember (w : Work) (key : DefinitionKey) (type : Option ResolvedType) :
    (w.remember key type).problems = w.problems := by
  unfold Work.remember
  split <;> rfl

theorem Work.Faithful.remember {scopes : Scopes} {w : Work} (h : w.Faithful scopes) {found : Located Typedef}
    (hfound : scopes.Holds found) {result : Option ResolvedType}
    (hresult : ∀ type, result = some type ↔ scopes.Defines found type)
    (hfailed : result = none → w.problems ≠ []) : (w.remember found.key result).Faithful scopes where
  known := by
    intro l hl known hknown
    rw [Work.lookup_remember] at hknown
    split at hknown
    · next heq =>
      have hl' : l = found := hl.eq_of_key_eq hfound heq
      subst hl'
      cases hold : w.types.lookup l.key with
      | none =>
        rw [hold, Option.getD_none] at hknown
        cases hknown
        exact hresult
      | some before =>
        rw [hold, Option.getD_some] at hknown
        cases hknown
        exact h.known l hl known hold
    · exact h.known l hl known hknown
  failed := by
    intro key hkey
    rw [Work.problems_remember]
    rw [Work.lookup_remember] at hkey
    split at hkey
    · cases hold : w.types.lookup found.key with
      | none =>
        rw [hold, Option.getD_none] at hkey
        exact hfailed (Option.some.inj hkey)
      | some before =>
        rw [hold, Option.getD_some] at hkey
        rw [hkey] at hold
        exact h.failed _ hold
    · exact h.failed key hkey

namespace Scopes

structure Settles (scopes : Scopes) (p : ResolvedType → Prop) (w : Work) (r : Option ResolvedType × Work) :
    Prop where
  result : ∀ type, r.1 = some type ↔ p type
  faithful : r.2.Faithful scopes
  later : w.problems <+: r.2.problems
  silent : ∀ {type}, r.1 = some type → r.2.problems = w.problems
  loud : r.1 = none → r.2.problems ≠ []

variable {scopes : Scopes}

theorem settles_report {p : ResolvedType → Prop} {w : Work} (hw : w.Faithful scopes) (context : Context)
    (finding : Finding) (hp : ∀ type, ¬ p type) : scopes.Settles p w (none, w.report context finding) where
  result := by
    intro type
    constructor
    · intro h
      cases h
    · intro h
      exact (hp type h).elim
  faithful := hw.report context finding
  later := List.prefix_append _ _
  silent := fun h => nomatch h
  loud := fun _ => w.problems_report_ne_nil context finding

section

variable {w : Work} {inside : List DefinitionKey} {context : Context} {reference : String} {declared : Restrictions}
  {found : Located Typedef}

theorem typeOf_builtin (hb : isBuiltin reference = true) :
    scopes.typeOf inside context reference declared w
      = (some ((ResolvedType.builtin reference).restrict declared), w) := by
  rw [typeOf, if_pos hb]

theorem typeOf_of_resolve_eq_error (hb : isBuiltin reference = false) {finding : Finding}
    (h : (scopes.resolve context reference : Except Finding (Located Typedef)) = .error finding) :
    scopes.typeOf inside context reference declared w = (none, w.report context finding) := by
  rw [typeOf, if_neg (by simp [hb])]
  split
  · next heq =>
    rw [h] at heq
    cases heq
    rfl
  · next heq => rw [h] at heq; cases heq

theorem typeOf_of_resolve_eq_ok (hb : isBuiltin reference = false) (h : scopes.resolve context reference = .ok found) :
    scopes.typeOf inside context reference declared w
      = (let base := scopes.typeOfTypedef inside found (mem_definitions_of_resolve h) w
        (base.1.map (fun type => (type.referred reference).restrict declared), base.2)) := by
  rw [typeOf, if_neg (by simp [hb])]
  split
  · next heq => rw [h] at heq; cases heq
  · next heq =>
    rw [h] at heq
    cases heq
    rfl

theorem settles_builtin (hw : w.Faithful scopes) (hb : isBuiltin reference = true) :
    scopes.Settles (scopes.Denotes context reference declared) w
      (scopes.typeOf inside context reference declared w) := by
  rw [typeOf_builtin hb]
  constructor
  · intro type
    rw [denotes_iff_of_isBuiltin hb, Option.some.injEq]
  · exact hw
  · exact List.prefix_refl _
  · intros
    rfl
  · intro h
    cases h

theorem settles_error (hw : w.Faithful scopes) (hb : isBuiltin reference = false) {finding : Finding}
    (hfinding : (scopes.resolve context reference : Except Finding (Located Typedef)) = .error finding) :
    scopes.Settles (scopes.Denotes context reference declared) w
      (scopes.typeOf inside context reference declared w) := by
  rw [typeOf_of_resolve_eq_error hb hfinding]
  exact settles_report hw context finding (not_denotes_of_resolve_eq_error hb hfinding)

theorem settles_ok (hb : isBuiltin reference = false) (hfound : scopes.resolve context reference = .ok found)
    (hs : scopes.Settles (scopes.Defines found) w
      (scopes.typeOfTypedef inside found (mem_definitions_of_resolve hfound) w)) :
    scopes.Settles (scopes.Denotes context reference declared) w
      (scopes.typeOf inside context reference declared w) := by
  rw [typeOf_of_resolve_eq_ok hb hfound]
  constructor
  · intro type
    rw [denotes_iff_of_resolve_eq_ok hb hfound, Option.map_eq_some_iff]
    simp only [hs.result]
  · exact hs.faithful
  · exact hs.later
  · intro type htype
    obtain ⟨defined, hdefined, _⟩ := Option.map_eq_some_iff.1 htype
    exact hs.silent hdefined
  · intro hnone
    exact hs.loud (Option.map_eq_none_iff.1 hnone)

variable {isThere : found ∈ scopes.definitions Typedef}

theorem settles_known (hw : w.Faithful scopes) (hholds : scopes.Holds found) {known : Option ResolvedType}
    (hknown : w.types.lookup found.key = some known) :
    scopes.Settles (scopes.Defines found) w (scopes.typeOfTypedef inside found isThere w) := by
  rw [typeOfTypedef, hknown]
  constructor
  · exact hw.known found hholds known hknown
  · exact hw
  · exact List.prefix_refl _
  · intros
    rfl
  · rintro rfl
    exact hw.failed _ hknown

theorem settles_recursive (hw : w.Faithful scopes) (hholds : scopes.Holds found)
    (hnew : w.types.lookup found.key = none) (hin : inside.contains found.key = true)
    (hnot : ∀ type, ¬ scopes.Defines found type) :
    scopes.Settles (scopes.Defines found) w (scopes.typeOfTypedef inside found isThere w) := by
  rw [typeOfTypedef, hnew]
  dsimp only
  rw [dif_pos hin]
  have hs := settles_report hw found.context (.recursive .typedef found.definition.name) hnot
  constructor
  · exact hs.result
  · exact hs.faithful.remember hholds hs.result hs.loud
  · rw [Work.problems_remember]
    exact hs.later
  · intro type h
    cases h
  · rw [Work.problems_remember]
    exact hs.loud

theorem settles_new (hholds : scopes.Holds found) (hnew : w.types.lookup found.key = none)
    (hout : ¬ inside.contains found.key = true)
    (hs : scopes.Settles
      (scopes.Denotes found.context found.definition.type found.definition.restrictions) w
      (scopes.typeOf (found.key :: inside) found.context found.definition.type found.definition.restrictions w)) :
    scopes.Settles (scopes.Defines found) w (scopes.typeOfTypedef inside found isThere w) := by
  rw [typeOfTypedef, hnew]
  dsimp only
  rw [dif_neg hout]
  generalize scopes.typeOf (found.key :: inside) found.context found.definition.type found.definition.restrictions w
    = r at hs
  obtain ⟨inner, w'⟩ := r
  dsimp only
  have hresult : ∀ type, inner.map (fun t => t.derived found.definition) = some type
      ↔ scopes.Defines found type := by
    intro type
    rw [Option.map_eq_some_iff]
    unfold Defines
    constructor
    · rintro ⟨t, ht, rfl⟩
      exact ⟨t, (hs.result t).1 ht, rfl⟩
    · rintro ⟨t, ht, rfl⟩
      exact ⟨t, (hs.result t).2 ht, rfl⟩
  have hfailed : inner.map (fun t => t.derived found.definition) = none → w'.problems ≠ [] := by
    intro h
    exact hs.loud (Option.map_eq_none_iff.1 h)
  have hfaithful := hs.faithful.remember hholds hresult hfailed
  -- what is remembered need not be what was just found, but by then it is known to be right as well
  have hlookup := Work.lookup_remember w' found.key found.key
    (inner.map (fun t => t.derived found.definition))
  rw [if_pos rfl] at hlookup
  have hknown := hfaithful.known found hholds _ hlookup
  rw [hlookup, Option.join_some]
  constructor
  · exact hknown
  · exact hfaithful
  · rw [Work.problems_remember]
    exact hs.later
  · intro type htype
    rw [Work.problems_remember]
    obtain ⟨t, ht, _⟩ := (hknown type).1 htype
    exact hs.silent ((hs.result t).2 ht)
  · intro hnone
    dsimp only at hnone
    rw [hnone] at hlookup
    exact hfaithful.failed _ hlookup

end

theorem settles (hc : scopes.Coherent) {w : Work} (hw : w.Faithful scopes) :
    (∀ inside context reference declared,
      scopes.LeadsTo inside (scopes.Denotes context reference declared) →
        scopes.Settles (scopes.Denotes context reference declared) w
          (scopes.typeOf inside context reference declared w))
    ∧ ∀ inside found isThere, scopes.Holds found → scopes.LeadsTo inside (scopes.Defines found) →
        scopes.Settles (scopes.Defines found) w (scopes.typeOfTypedef inside found isThere w) := by
  -- `LeadsTo` is what a definition on the way to itself contradicts, so it goes through the whole recursion
  apply typeOf.mutual_induct scopes w
    (fun inside context reference declared =>
      scopes.LeadsTo inside (scopes.Denotes context reference declared) →
        scopes.Settles (scopes.Denotes context reference declared) w
          (scopes.typeOf inside context reference declared w))
    (fun inside found isThere => scopes.Holds found → scopes.LeadsTo inside (scopes.Defines found) →
        scopes.Settles (scopes.Defines found) w (scopes.typeOfTypedef inside found isThere w))
  · intro inside context reference declared hb _
    exact settles_builtin hw hb
  · intro inside context reference declared hb finding hfinding _
    rw [Bool.not_eq_true] at hb
    exact settles_error hw hb hfinding
  · intro inside context reference declared hb found hfound base w' _ ih hl
    rw [Bool.not_eq_true] at hb
    exact settles_ok hb hfound (ih (hc.holds_of_resolve hfound) (hl.defines hb hfound))
  · intro inside found isThere known hknown hholds _
    exact settles_known hw hholds hknown
  · intro inside found isThere hnew hin hholds hl
    exact settles_recursive hw hholds hnew hin (hl.not_defines hholds hin)
  · intro inside found isThere hnew hout inner w' _ ih hholds hl
    exact settles_new hholds hnew hout (ih (hl.enter hholds))

theorem settles_typeOf (hc : scopes.Coherent) {w : Work} (hw : w.Faithful scopes) (context : Context)
    (reference : String) (declared : Restrictions) :
    scopes.Settles (scopes.Denotes context reference declared) w
      (scopes.typeOf [] context reference declared w) :=
  (settles hc hw).1 [] context reference declared (leadsTo_nil _)

theorem settles_typeOfTypedef (hc : scopes.Coherent) {w : Work} (hw : w.Faithful scopes)
    {found : Located Typedef} (isThere : found ∈ scopes.definitions Typedef) (hfound : scopes.Holds found) :
    scopes.Settles (scopes.Defines found) w (scopes.typeOfTypedef [] found isThere w) :=
  (settles hc hw).2 [] found isThere hfound (leadsTo_nil _)

end Scopes

end Yang

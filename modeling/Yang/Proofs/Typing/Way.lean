import Yang.Proofs.Typing.Meaning

/-!
This module contains the way from a reference to a built-in type: the derived types that are met when every reference is
looked up in the document that it stands in. A way that does not end comes to a reference that stands for nothing, or
back to a derived type that it came from.
-/

namespace Yang

structure Hop where
  reference : String
  found : Located Typedef

namespace Scopes

section

variable {α : Type} [Defined α]

def Selects (scopes : Scopes) (context : Context) (reference : String) (l : Located α) : Prop :=
  ∃ scope ∈ scopes, context.moduleOf? (Reference.ofText reference).prefixId = some scope.main.name
    ∧ Defined.name l.definition = (Reference.ofText reference).name
    ∧ ∃ before after, scope.definitions α = before ++ l :: after
      ∧ ∀ k ∈ before, Defined.name k.definition ≠ (Reference.ofText reference).name

theorem find?_eq_some_iff {scope : Scope} {name : String} {l : Located α} :
    scope.find? name = some l ↔ Defined.name l.definition = name
      ∧ ∃ before after, scope.definitions α = before ++ l :: after
        ∧ ∀ k ∈ before, Defined.name k.definition ≠ name := by
  rw [Scope.find?_eq, List.find?_eq_some_iff_append]
  simp

theorem Coherent.selects_iff {scopes : Scopes} (hc : scopes.Coherent) {context : Context} {reference : String}
    {l : Located α} : scopes.Selects context reference l ↔ scopes.resolve context reference = .ok l := by
  constructor
  · rintro ⟨scope, hs, hmodule, hl⟩
    unfold resolve
    dsimp only
    rw [hmodule]
    dsimp only
    rw [scope?_eq_some_of_mem hc.distinct hs, Option.bind_some, find?_eq_some_iff.2 hl]
  · intro h
    obtain ⟨name, scope, hmodule, hs, hl⟩ := resolve_spec h
    obtain ⟨hmem, rfl⟩ := scope?_spec hs
    exact ⟨scope, hmem, hmodule, find?_eq_some_iff.1 hl⟩

theorem Coherent.selects_unique {scopes : Scopes} (hc : scopes.Coherent) {context : Context} {reference : String}
    {l l' : Located α} (h : scopes.Selects context reference l) (h' : scopes.Selects context reference l') :
    l = l' := by
  rw [hc.selects_iff] at h h'
  rw [h] at h'
  cases h'
  rfl

end

inductive Way (scopes : Scopes) : Context → String → List Hop → String → Prop
  | builtin {context : Context} {reference : String} (h : isBuiltin reference = true) :
    Way scopes context reference [] reference
  | derived {context : Context} {reference : String} {found : Located Typedef} {hops : List Hop} {base : String}
    (h : isBuiltin reference = false) (hselects : scopes.Selects context reference found)
    (hrest : Way scopes found.context found.definition.type hops base) :
    Way scopes context reference (⟨reference, found⟩ :: hops) base

inductive Meets (scopes : Scopes) (context : Context) (reference : String) : Located Typedef → Prop
  | here {found : Located Typedef} (h : isBuiltin reference = false)
    (hselects : scopes.Selects context reference found) : Meets scopes context reference found
  | later {found next : Located Typedef} (hmeets : Meets scopes context reference found)
    (h : isBuiltin found.definition.type = false)
    (hselects : scopes.Selects found.context found.definition.type next) : Meets scopes context reference next

def Dangles (scopes : Scopes) (context : Context) (reference : String) : Prop :=
  isBuiltin reference = false ∧ ∀ l : Located Typedef, ¬ scopes.Selects context reference l

def Strays (scopes : Scopes) (context : Context) (reference : String) : Prop :=
  scopes.Dangles context reference
    ∨ (∃ l, scopes.Meets context reference l ∧ scopes.Dangles l.context l.definition.type)
    ∨ ∃ l, scopes.Meets context reference l ∧ scopes.Meets l.context l.definition.type l

variable {scopes : Scopes} {context : Context} {reference : String} {found : Located Typedef} {hops : List Hop}
  {base : String}

theorem Meets.before {l : Located Typedef} (h : isBuiltin reference = false)
    (hselects : scopes.Selects context reference found)
    (hmeets : scopes.Meets found.context found.definition.type l) : scopes.Meets context reference l := by
  induction hmeets with
  | here h' hselects' => exact .later (.here h hselects) h' hselects'
  | later _ h' hselects' ih => exact .later ih h' hselects'

theorem Strays.before (h : isBuiltin reference = false) (hselects : scopes.Selects context reference found)
    (hstrays : scopes.Strays found.context found.definition.type) : scopes.Strays context reference := by
  rcases hstrays with hdangles | ⟨l, hmeets, hdangles⟩ | ⟨l, hmeets, hagain⟩
  · exact .inr (.inl ⟨found, .here h hselects, hdangles⟩)
  · exact .inr (.inl ⟨l, hmeets.before h hselects, hdangles⟩)
  · exact .inr (.inr ⟨l, hmeets.before h hselects, hagain⟩)

theorem Way.not_dangles (hway : scopes.Way context reference hops base) : ¬ scopes.Dangles context reference := by
  rintro ⟨h, hnone⟩
  cases hway with
  | builtin hb => rw [h] at hb; cases hb
  | derived _ hselects _ => exact hnone _ hselects

theorem Way.next (hc : scopes.Coherent) (hway : scopes.Way context reference hops base)
    (h : isBuiltin reference = false) (hselects : scopes.Selects context reference found) :
    ∃ rest, scopes.Way found.context found.definition.type rest base ∧ hops = ⟨reference, found⟩ :: rest := by
  cases hway with
  | builtin hb => rw [h] at hb; cases hb
  | derived _ hselects' hrest =>
    cases hc.selects_unique hselects hselects'
    exact ⟨_, hrest, rfl⟩

theorem Way.unique (hc : scopes.Coherent) (hway : scopes.Way context reference hops base) {hops' : List Hop}
    {base' : String} (hway' : scopes.Way context reference hops' base') : hops = hops' ∧ base = base' := by
  induction hway generalizing hops' with
  | builtin hb =>
    cases hway' with
    | builtin => exact ⟨rfl, rfl⟩
    | derived h => rw [hb] at h; cases h
  | derived h hselects _ ih =>
    obtain ⟨rest, hrest, rfl⟩ := hway'.next hc h hselects
    obtain ⟨rfl, rfl⟩ := ih hrest
    exact ⟨rfl, rfl⟩

theorem Way.of_meets (hc : scopes.Coherent) (hway : scopes.Way context reference hops base) {l : Located Typedef}
    (hmeets : scopes.Meets context reference l) :
    ∃ rest, scopes.Way l.context l.definition.type rest base ∧ rest.length < hops.length := by
  induction hmeets with
  | here h hselects =>
    obtain ⟨rest, hrest, rfl⟩ := hway.next hc h hselects
    exact ⟨rest, hrest, Nat.lt_succ_self _⟩
  | later _ h hselects ih =>
    obtain ⟨rest, hrest, hlt⟩ := ih
    obtain ⟨rest', hrest', rfl⟩ := hrest.next hc h hselects
    exact ⟨rest', hrest', (Nat.lt_succ_self _).trans hlt⟩

theorem Way.not_strays (hc : scopes.Coherent) (hway : scopes.Way context reference hops base) :
    ¬ scopes.Strays context reference := by
  rintro (hdangles | ⟨l, hmeets, hdangles⟩ | ⟨l, hmeets, hagain⟩)
  · exact hway.not_dangles hdangles
  · obtain ⟨rest, hrest, _⟩ := hway.of_meets hc hmeets
    exact hrest.not_dangles hdangles
  · obtain ⟨rest, hrest, _⟩ := hway.of_meets hc hmeets
    obtain ⟨rest', hrest', hlt⟩ := hrest.of_meets hc hagain
    rw [(hrest.unique hc hrest').1] at hlt
    exact hlt.false

def Trails (scopes : Scopes) (inside : List DefinitionKey) (context : Context) (reference : String) : Prop :=
  ∀ l : Located Typedef, scopes.Holds l → l.key ∈ inside → ∀ found, isBuiltin reference = false →
    scopes.Selects context reference found → scopes.Meets l.context l.definition.type found

theorem Trails.enter {inside : List DefinitionKey} (htrails : scopes.Trails inside context reference)
    (hfound : scopes.Holds found) (h : isBuiltin reference = false)
    (hselects : scopes.Selects context reference found) :
    scopes.Trails (found.key :: inside) found.context found.definition.type := by
  intro l hl hin next h' hselects'
  rcases List.mem_cons.1 hin with heq | hin
  · cases hl.eq_of_key_eq hfound heq
    exact .here h' hselects'
  · exact .later (htrails l hl hin found h hselects) h' hselects'

theorem exists_way_or_strays (hc : scopes.Coherent) (inside : List DefinitionKey) (context : Context)
    (reference : String) (htrails : scopes.Trails inside context reference) :
    (∃ hops base, scopes.Way context reference hops base) ∨ scopes.Strays context reference := by
  -- each definition that is met and not among those that were met leaves fewer of them
  induction hn : scopes.remaining Typedef inside using Nat.strong_induction_on
    generalizing inside context reference with
  | _ n ih =>
    subst hn
    cases h : isBuiltin reference with
    | true => exact .inl ⟨[], reference, .builtin h⟩
    | false =>
      by_cases hselects : ∃ found : Located Typedef, scopes.Selects context reference found
      · obtain ⟨found, hselects⟩ := hselects
        have hresolve := hc.selects_iff.1 hselects
        have hfound := hc.holds_of_resolve hresolve
        by_cases hin : found.key ∈ inside
        · exact .inr (.inr (.inr ⟨found, .here h hselects, htrails found hfound hin found h hselects⟩))
        · have hlt := remaining_lt (mem_definitions_of_resolve hresolve) (by simpa using hin)
          rcases ih _ hlt _ _ _ (htrails.enter hfound h hselects) rfl with ⟨hops, base, hrest⟩ | hstrays
          · exact .inl ⟨_, base, .derived h hselects hrest⟩
          · exact .inr (hstrays.before h hselects)
      · exact .inr (.inl ⟨h, not_exists.1 hselects⟩)

theorem exists_way_iff (hc : scopes.Coherent) :
    (∃ hops base, scopes.Way context reference hops base) ↔ ¬ scopes.Strays context reference := by
  constructor
  · rintro ⟨hops, base, hway⟩
    exact hway.not_strays hc
  · intro h
    refine (exists_way_or_strays hc [] context reference ?_).resolve_right h
    intro l _ hin
    cases hin

end Scopes

end Yang

import Yang.Proofs.Typing.Way

/-!
This module contains what a resolved type keeps of the way to its built-in type: the references on it, and of every
restriction, default and unit the one that is set nearest to the start.
-/

namespace Yang

theorem lookup_toList_map {α β : Type} (name : String) (f : α → β) (value : Option α) (other : String) :
    (value.map (fun v => (name, f v))).toList.lookup other = if other = name then value.map f else none := by
  cases value with
  | none => simp
  | some v =>
    by_cases h : other = name
    · simp [h]
    · simp [h, List.lookup_cons, beq_eq_false_iff_ne.2 h]

theorem lookup_putAll {α : Type} {more : List (String × α)} (h : (more.map Prod.fst).Nodup)
    (table : List (String × α)) (name : String) :
    (putAll table more).lookup name = (more.lookup name).or (table.lookup name) := by
  induction more generalizing table with
  | nil => rfl
  | cons p rest ih =>
    obtain ⟨n, v⟩ := p
    rw [List.map_cons, List.nodup_cons] at h
    change (putAll (put n v table) rest).lookup name = _
    rw [ih h.2]
    by_cases heq : name = n
    · subst heq
      have hnone : rest.lookup name = none := by
        rw [List.lookup_eq_none_iff]
        intro p hp
        rw [bne_iff_ne]
        intro hname
        apply h.1
        rw [hname]
        change p.1 ∈ rest.map Prod.fst
        exact List.mem_map_of_mem hp
      rw [hnone, lookup_put_self, Option.none_or, List.lookup_cons_self, Option.some_or]
    · rw [lookup_put_of_ne v table heq, List.lookup_cons, beq_eq_false_iff_ne.2 heq]

namespace Restrictions

def facet? (r : Restrictions) : String → Option Facet
  | "enums" => r.enums.map .names
  | "range" => r.range.map .text
  | "length" => r.length.map .text
  | "pattern" => r.pattern.map .text
  | "path" => r.path.map .text
  | _ => none

theorem lookup_facets (r : Restrictions) (name : String) : r.facets.lookup name = r.facet? name := by
  have hlookup : r.facets.lookup name = ((((if name = "enums" then r.enums.map Facet.names else none).or
      (if name = "range" then r.range.map Facet.text else none)).or
      (if name = "length" then r.length.map Facet.text else none)).or
      (if name = "pattern" then r.pattern.map Facet.text else none)).or
      (if name = "path" then r.path.map Facet.text else none) := by
    unfold facets
    simp only [List.lookup_append, lookup_toList_map]
  unfold facet?
  split
  · simp [hlookup]
  · simp [hlookup]
  · simp [hlookup]
  · simp [hlookup]
  · simp [hlookup]
  · next henums hrange hlength hpattern hpath =>
    rw [hlookup, if_neg henums, if_neg hrange, if_neg hlength, if_neg hpattern, if_neg hpath]
    rfl

theorem nodup_facets (r : Restrictions) : (r.facets.map Prod.fst).Nodup := by
  have hsub : (r.facets.map Prod.fst).Sublist ["enums", "range", "length", "pattern", "path"] := by
    have hone : ∀ {α : Type} (name : String) (f : α → Facet) (value : Option α),
        ((value.map (fun v => (name, f v))).toList.map Prod.fst).Sublist [name] := by
      intro α name f value
      cases value with
      | none => exact List.nil_sublist _
      | some v => exact List.Sublist.refl _
    unfold facets
    simp only [List.map_append]
    exact ((((hone "enums" _ _).append (hone "range" _ _)).append (hone "length" _ _)).append
      (hone "pattern" _ _)).append (hone "path" _ _)
  exact hsub.nodup (by decide)

end Restrictions

structure ResolvedType.Keeps (type : ResolvedType) (reference : String) (declared : Restrictions) (hops : List Hop)
    (base : String) : Prop where
  name : type.name = reference
  base : type.base = base
  typedefs : type.typedefs = hops.map Hop.reference
  facets : ∀ name, type.facets.lookup name
    = (declared :: hops.map (fun hop => hop.found.definition.restrictions)).findSome? (fun r => r.facet? name)
  default : type.default = hops.findSome? (fun hop => hop.found.definition.default)
  units : type.units = hops.findSome? (fun hop => hop.found.definition.units)

namespace ResolvedType

variable {type : ResolvedType} {reference : String} {declared : Restrictions} {hops : List Hop} {base : String}

theorem lookup_restrict (type : ResolvedType) (r : Restrictions) (name : String) :
    (type.restrict r).facets.lookup name = (r.facet? name).or (type.facets.lookup name) := by
  unfold restrict
  rw [lookup_putAll r.nodup_facets, r.lookup_facets]

theorem keeps_builtin (reference : String) (declared : Restrictions) :
    ((builtin reference).restrict declared).Keeps reference declared [] reference where
  name := rfl
  base := rfl
  typedefs := rfl
  facets := by
    intro name
    rw [lookup_restrict, List.findSome?_cons]
    cases declared.facet? name <;> rfl
  default := rfl
  units := rfl

theorem Keeps.derived {found : Located Typedef}
    (h : type.Keeps found.definition.type found.definition.restrictions hops base) (reference : String)
    (declared : Restrictions) :
    (((type.derived found.definition).referred reference).restrict declared).Keeps reference declared
      (⟨reference, found⟩ :: hops) base where
  name := rfl
  base := h.base
  typedefs := by
    change reference :: type.typedefs = reference :: hops.map Hop.reference
    rw [h.typedefs]
  facets := by
    intro name
    rw [lookup_restrict, List.findSome?_cons]
    change (declared.facet? name).or (type.facets.lookup name) = _
    rw [h.facets]
    cases declared.facet? name <;> rfl
  default := by
    change found.definition.default.or type.default = _
    rw [h.default, List.findSome?_cons]
    cases found.definition.default <;> rfl
  units := by
    change found.definition.units.or type.units = _
    rw [h.units, List.findSome?_cons]
    cases found.definition.units <;> rfl

end ResolvedType

namespace Scopes

variable {scopes : Scopes} {context : Context} {reference : String} {declared : Restrictions} {hops : List Hop}
  {base : String}

theorem Denotes.exists_way (hc : scopes.Coherent) {type : ResolvedType}
    (hd : scopes.Denotes context reference declared type) :
    ∃ hops base, scopes.Way context reference hops base ∧ type.Keeps reference declared hops base := by
  induction hd with
  | builtin h => exact ⟨[], _, .builtin h, ResolvedType.keeps_builtin _ _⟩
  | derived h hfound _ ih =>
    obtain ⟨hops, base, hway, hkeeps⟩ := ih
    exact ⟨_, base, .derived h (hc.selects_iff.2 hfound) hway, hkeeps.derived _ _⟩

theorem Way.exists_denotes (hc : scopes.Coherent) (hway : scopes.Way context reference hops base)
    (declared : Restrictions) : ∃ type, scopes.Denotes context reference declared type := by
  induction hway generalizing declared with
  | builtin h => exact ⟨_, .builtin h⟩
  | derived h hselects _ ih =>
    obtain ⟨inner, hinner⟩ := ih _
    exact ⟨_, .derived h (hc.selects_iff.1 hselects) hinner⟩

/--
What the resolution of a reference in a document has to come to: no type just when the way from the reference strays,
and otherwise the type that keeps what is on the way.
-/
structure Amounts (scopes : Scopes) (context : Context) (reference : String) (declared : Restrictions)
    (result : Option ResolvedType) : Prop where
  none_iff : result = none ↔ scopes.Strays context reference
  keeps : ∀ type, result = some type →
    ∃ hops base, scopes.Way context reference hops base ∧ type.Keeps reference declared hops base

theorem amounts_of_denotes (hc : scopes.Coherent) {result : Option ResolvedType}
    (h : ∀ type, result = some type ↔ scopes.Denotes context reference declared type) :
    scopes.Amounts context reference declared result where
  none_iff := by
    rw [← not_iff_not, ← ne_eq, Option.ne_none_iff_exists', ← exists_way_iff hc]
    constructor
    · rintro ⟨type, htype⟩
      obtain ⟨hops, base, hway, _⟩ := ((h type).1 htype).exists_way hc
      exact ⟨hops, base, hway⟩
    · rintro ⟨hops, base, hway⟩
      obtain ⟨type, hd⟩ := hway.exists_denotes hc declared
      exact ⟨type, (h type).2 hd⟩
  keeps := fun type htype => ((h type).1 htype).exists_way hc

end Scopes

end Yang

import Yang.Proofs.Entry.Same
import Yang.Proofs.Tree.Accepted

/-!
This module contains what holds of the restrictions of types in trees that are built without a problem: they are those
that there are, and none is set twice, since a later one takes the place of an earlier one.
-/

namespace Yang

theorem mem_names_put {α : Type} {name : String} {value : α} {table : List (String × α)} {n : String}
    (h : n ∈ (put name value table).map Prod.fst) : n = name ∨ n ∈ table.map Prod.fst := by
  induction table with
  | nil => simpa [put] using h
  | cons p rest ih =>
    obtain ⟨m, v⟩ := p
    unfold put at h
    split at h
    · exact .inr h
    · rw [List.map_cons, List.mem_cons] at h ⊢
      rcases h with rfl | h
      · exact .inr (.inl rfl)
      · exact (ih h).imp_right .inr

theorem nodup_put {α : Type} {table : List (String × α)} (h : (table.map Prod.fst).Nodup) (name : String) (value : α) :
    ((put name value table).map Prod.fst).Nodup := by
  induction table with
  | nil => simp [put]
  | cons p rest ih =>
    obtain ⟨m, v⟩ := p
    unfold put
    split
    · exact h
    · next hne =>
      rw [List.map_cons, List.nodup_cons] at h ⊢
      refine ⟨fun hin => ?_, ih h.2⟩
      rcases mem_names_put hin with heq | hin
      · exact hne heq
      · exact h.1 hin

theorem nodup_putAll {α : Type} {table : List (String × α)} (h : (table.map Prod.fst).Nodup)
    (more : List (String × α)) : ((putAll table more).map Prod.fst).Nodup := by
  unfold putAll
  induction more generalizing table with
  | nil => exact h
  | cons p rest ih => exact ih (nodup_put h p.1 p.2)

theorem mem_names_putAll {α : Type} {table more : List (String × α)} {n : String}
    (h : n ∈ (putAll table more).map Prod.fst) : n ∈ table.map Prod.fst ∨ n ∈ more.map Prod.fst := by
  unfold putAll at h
  induction more generalizing table with
  | nil => exact .inl h
  | cons p rest ih =>
    rw [List.map_cons, List.mem_cons]
    rcases ih h with h | h
    · rcases mem_names_put h with heq | h
      · exact .inr (.inl heq)
      · exact .inl h
    · exact .inr (.inr h)

def Restrictions.names : List String :=
  ["enums", "range", "length", "pattern", "path"]

theorem Restrictions.names_facets (r : Restrictions) : ∀ n ∈ r.facets.map Prod.fst, n ∈ names := by
  intro n hn
  unfold facets at hn
  simp only [List.map_append, List.mem_append, List.mem_map, Option.mem_toList, Option.map_eq_some_iff] at hn
  rcases hn with (((⟨_, ⟨_, _, rfl⟩, rfl⟩ | ⟨_, ⟨_, _, rfl⟩, rfl⟩) | ⟨_, ⟨_, _, rfl⟩, rfl⟩) | ⟨_, ⟨_, _, rfl⟩, rfl⟩)
    | ⟨_, ⟨_, _, rfl⟩, rfl⟩ <;> simp [names]

structure ResolvedType.Regular (type : ResolvedType) : Prop where
  nodup : (type.facets.map Prod.fst).Nodup
  names : ∀ n ∈ type.facets.map Prod.fst, n ∈ Restrictions.names

theorem ResolvedType.Regular.restrict {type : ResolvedType} (h : type.Regular) (declared : Restrictions) :
    (type.restrict declared).Regular where
  nodup := nodup_putAll h.nodup _
  names := by
    intro n hn
    rcases mem_names_putAll hn with hn | hn
    · exact h.names n hn
    · exact declared.names_facets n hn

def EntryHead.Regular (head : EntryHead) : Prop :=
  ∀ type, head.type = some type → type.Regular

namespace Scopes

variable {scopes : Scopes} {owner : Owner} {context : Context}

theorem Denotes.regular {reference : String} {declared : Restrictions} {type : ResolvedType}
    (hd : scopes.Denotes context reference declared type) : type.Regular := by
  induction hd with
  | builtin =>
    apply ResolvedType.Regular.restrict
    exact ⟨List.nodup_nil, nofun⟩
  | derived _ _ _ ih =>
    apply ResolvedType.Regular.restrict
    exact ⟨ih.nodup, ih.names⟩

theorem HasType.regular {node : Node} {writable : Bool} {type : Option ResolvedType}
    (ht : scopes.HasType context node type) : (node.makeHead owner writable type).Regular := by
  intro t htype
  rw [Node.type_makeHead] at htype
  subst htype
  cases heq : node.typed? with
  | none =>
    rw [hasType_of_typed?_eq_none heq] at ht
    cases ht
  | some typed =>
    obtain ⟨t', htype, hdenotes⟩ := (hasType_of_typed?_eq_some heq _).1 ht
    cases htype
    exact hdenotes.regular

theorem Flourishes.regular {forest : Forest} (h : scopes.Flourishes forest) :
    ∀ tree ∈ forest, tree.All (fun head _ => head.Regular) := by
  refine h.all (p := fun head _ => head.Regular) ?_ ?_ ?_
  · intro _ _ _ _ _ _ _ _ htype _ _ _
    exact htype.regular
  · -- a module has no type
    intro scope tree hplanted type htype
    rw [hplanted.head] at htype
    cases htype
  · intro _ _ _ _ _ _ _ hentry
    exact hentry

theorem Flourishes.restricted {forest : Forest} (h : scopes.Flourishes forest) :
    ∀ tree ∈ forest, tree.All (fun head _ => head.Restricted) := by
  intro tree htree d hd type htype
  exact (h.regular tree htree d hd type htype).nodup

end Scopes

end Yang

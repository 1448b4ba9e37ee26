import Mathlib.Data.List.Nodup
import Yang.Proofs.Scope.Coherent

/-!
This module contains the definitions that count: those that are the first ones of their names in a scope. In coherent
scopes they are the ones that references can stand for, and no two of them have the same key.
-/

namespace Yang

namespace Scopes

section

variable {α : Type} [Defined α]

def firsts (α : Type) [Defined α] (scopes : Scopes) : List (Located α) :=
  scopes.flatMap (Scope.firsts α)

variable {scopes : Scopes} {scope : Scope} {l : Located α}

theorem mem_firsts_of_find? {name : String} (h : scope.find? name = some l) : l ∈ scope.firsts α := by
  rw [Scope.find?_eq] at h
  -- a definition is left out only if its name came before, and the one that is found is not left out
  suffices ∀ (names : List String) (all : List (Located α)), names.contains name = false →
      all.find? (fun k => Defined.name k.definition == name) = some l → l ∈ Scope.firsts.go α names all from
    this [] _ rfl h
  intro names all
  induction all generalizing names with
  | nil =>
    intro _ h
    cases h
  | cons first rest ih =>
    intro hnew hfind
    unfold Scope.firsts.go
    dsimp only
    rw [List.find?_cons] at hfind
    split at hfind
    · next hname =>
      cases hfind
      rw [eq_of_beq hname, hnew, if_neg Bool.false_ne_true]
      exact List.mem_cons_self
    · next hname =>
      split
      · exact ih names hnew hfind
      · refine List.mem_cons_of_mem _ (ih _ ?_ hfind)
        rw [List.contains_cons, hnew, Bool.or_false, ← hname]
        exact Bool.beq_comm

theorem nodup_names_firsts (scope : Scope) : ((scope.firsts α).map fun l => Defined.name l.definition).Nodup := by
  suffices ∀ (names : List String) (all : List (Located α)),
      ((Scope.firsts.go α names all).map fun l => Defined.name l.definition).Nodup
        ∧ ∀ l ∈ Scope.firsts.go α names all, Defined.name l.definition ∉ names from
    (this [] _).1
  intro names all
  induction all generalizing names with
  | nil => exact ⟨List.nodup_nil, List.forall_mem_nil _⟩
  | cons first rest ih =>
    unfold Scope.firsts.go
    dsimp only
    split
    · exact ih names
    · next hnew =>
      obtain ⟨hnodup, hout⟩ := ih (Defined.name first.definition :: names)
      simp only [List.mem_cons, not_or] at hout
      rw [List.map_cons, List.nodup_cons, List.forall_mem_cons]
      refine ⟨⟨?_, hnodup⟩, by simpa using hnew, fun l hl => (hout l hl).2⟩
      rintro hmem
      obtain ⟨l, hl, hname⟩ := List.mem_map.1 hmem
      exact (hout l hl).1 hname

theorem Coherent.mem_firsts_iff (hc : scopes.Coherent) : l ∈ scopes.firsts α ↔ scopes.Holds l := by
  unfold firsts
  rw [List.mem_flatMap]
  constructor
  · rintro ⟨scope, hs, hl⟩
    exact hc.holds_of_mem_firsts hs hl
  · intro h
    obtain ⟨scope, hs, hl⟩ := Option.bind_eq_some_iff.1 h
    exact ⟨scope, (scope?_spec hs).1, mem_firsts_of_find? hl⟩

theorem Coherent.exists_first (hc : scopes.Coherent) (hl : l ∈ scopes.definitions α) :
    ∃ k ∈ scopes.firsts α, k.key = l.key := by
  obtain ⟨scope, hs, hl⟩ := List.mem_flatMap.1 hl
  obtain ⟨k, hk⟩ : ∃ k : Located α, scope.find? (Defined.name l.definition) = some k := by
    rw [← Option.isSome_iff_exists, Scope.find?_eq]
    exact List.find?_isSome.2 ⟨l, hl, beq_self_eq_true _⟩
  obtain ⟨hmem, hname⟩ := find?_spec hk
  refine ⟨k, List.mem_flatMap.2 ⟨scope, hs, mem_firsts_of_find? hk⟩, ?_⟩
  unfold Located.key
  rw [hname, hc.owner scope hs _ (mem_contexts_of_mem_definitions hmem),
    hc.owner scope hs _ (mem_contexts_of_mem_definitions hl)]

theorem Coherent.nodup_firsts (hc : scopes.Coherent) : (scopes.firsts α).Nodup := by
  unfold firsts
  rw [List.nodup_flatMap]
  refine ⟨fun scope _ => .of_map _ (nodup_names_firsts scope), ?_⟩
  -- two scopes have different modules, and each definition stands in a document of its scope's module
  have hdistinct : scopes.Pairwise fun s s' => s.main.name ≠ s'.main.name := List.pairwise_map.1 hc.distinct
  refine hdistinct.imp_of_mem fun {s s'} hs hs' hne => ?_
  intro l hl hl'
  apply hne
  rw [← hc.owner s hs _ (mem_contexts_of_mem_definitions (Scope.mem_definitions_of_mem_firsts hl)),
    ← hc.owner s' hs' _ (mem_contexts_of_mem_definitions (Scope.mem_definitions_of_mem_firsts hl'))]

theorem Coherent.nodup_keys (hc : scopes.Coherent) : ((scopes.firsts α).map Located.key).Nodup :=
  hc.nodup_firsts.map_on fun _ hl _ hl' hkey => (hc.mem_firsts_iff.1 hl).eq_of_key_eq (hc.mem_firsts_iff.1 hl') hkey

end

end Scopes

end Yang

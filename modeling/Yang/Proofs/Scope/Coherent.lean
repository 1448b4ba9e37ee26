import Yang.Proofs.Keyed
import Yang.Scope

/-!
This module contains coherent scopes: every module has one scope, and the documents in it are documents of the module.
In coherent scopes a definition is the only one of its key that anything can refer to.
-/

namespace Yang

namespace Scopes

variable {α : Type} [Defined α] {scopes : Scopes} {scope : Scope}

structure Coherent (scopes : Scopes) : Prop where
  distinct : (scopes.map (fun s => s.main.name)).Nodup
  owner : ∀ scope ∈ scopes, ∀ context ∈ scope.contexts, context.owner = scope.main.name

def Shows (scopes : Scopes) (context : Context) : Prop :=
  ∃ scope ∈ scopes, context ∈ scope.contexts

theorem scope?_spec {name : String} (h : scopes.scope? name = some scope) :
    scope ∈ scopes ∧ scope.main.name = name := by
  constructor
  · exact List.mem_of_find?_eq_some h
  · simpa using List.find?_some h

theorem scope?_eq_some_of_mem (hd : (scopes.map (fun s => s.main.name)).Nodup) (hs : scope ∈ scopes) :
    scopes.scope? scope.main.name = some scope :=
  find?_eq_some_of_mem hd hs

def Holds (scopes : Scopes) (l : Located α) : Prop :=
  (scopes.scope? l.context.owner).bind (fun scope => scope.find? (Defined.name l.definition)) = some l

theorem Holds.eq_of_key_eq {l l' : Located α} (h : scopes.Holds l) (h' : scopes.Holds l')
    (hkey : l.key = l'.key) : l = l' := by
  unfold Located.key at hkey
  obtain ⟨howner, hname⟩ := Prod.mk.inj hkey
  unfold Holds at h h'
  rw [howner, hname, h'] at h
  exact (Option.some.inj h).symm

theorem mem_contexts_of_mem_definitions {l : Located α} (h : l ∈ scope.definitions α) :
    l.context ∈ scope.contexts := by
  obtain ⟨context, hc, hl⟩ := List.mem_flatMap.1 h
  obtain ⟨definition, _, rfl⟩ := List.mem_map.1 hl
  exact hc

theorem find?_spec {name : String} {l : Located α} (h : scope.find? name = some l) :
    l ∈ scope.definitions α ∧ Defined.name l.definition = name := by
  rw [Scope.find?_eq] at h
  constructor
  · exact List.mem_of_find?_eq_some h
  · simpa using List.find?_some h

theorem Coherent.holds_of_find? (hc : scopes.Coherent) {name : String} {l : Located α} (hs : scope ∈ scopes)
    (h : scope.find? name = some l) : scopes.Holds l := by
  obtain ⟨hmem, hname⟩ := find?_spec h
  have howner := hc.owner scope hs l.context (mem_contexts_of_mem_definitions hmem)
  unfold Holds
  rw [howner, scope?_eq_some_of_mem hc.distinct hs, Option.bind_some, hname]
  exact h

theorem resolve_spec {context : Context} {text : String} {l : Located α}
    (h : scopes.resolve context text = .ok l) :
    ∃ name scope, context.moduleOf? (Reference.ofText text).prefixId = some name
      ∧ scopes.scope? name = some scope ∧ scope.find? (Reference.ofText text).name = some l := by
  unfold resolve at h
  dsimp only at h
  split at h
  · cases h
  · next name hname =>
    split at h
    · cases h
    · next found hf =>
      cases h
      obtain ⟨scope, hs, hl⟩ := Option.bind_eq_some_iff.1 hf
      exact ⟨name, scope, hname, hs, hl⟩

theorem shows_of_resolve {context : Context} {text : String} {l : Located α} (h : scopes.resolve context text = .ok l) :
    scopes.Shows l.context := by
  obtain ⟨scope, hscope, hl⟩ := List.mem_flatMap.1 (mem_definitions_of_resolve h)
  exact ⟨scope, hscope, mem_contexts_of_mem_definitions hl⟩

theorem Coherent.holds_of_resolve (hc : scopes.Coherent) {context : Context} {text : String} {l : Located α}
    (h : scopes.resolve context text = .ok l) : scopes.Holds l := by
  obtain ⟨name, scope, _, hs, hl⟩ := resolve_spec h
  exact hc.holds_of_find? (scope?_spec hs).1 hl

theorem find?_of_mem_firsts {l : Located α} (h : l ∈ scope.firsts α) :
    scope.find? (Defined.name l.definition) = some l := by
  rw [Scope.find?_eq]
  -- none of the names that were seen before is the name of a first definition that is still to come
  suffices ∀ (names : List String) (all : List (Located α)), l ∈ Scope.firsts.go α names all →
      names.contains (Defined.name l.definition) = false
        ∧ all.find? (fun k => Defined.name k.definition == Defined.name l.definition) = some l from
    (this [] _ h).2
  intro names all
  induction all generalizing names with
  | nil => intro h; cases h
  | cons first rest ih =>
    intro h
    unfold Scope.firsts.go at h
    dsimp only at h
    rw [List.find?_cons]
    split at h
    · next hin =>
      obtain ⟨hn, hf⟩ := ih names h
      have hne : Defined.name first.definition ≠ Defined.name l.definition := by
        intro heq
        rw [heq, hn] at hin
        cases hin
      rw [beq_eq_false_iff_ne.2 hne]
      exact ⟨hn, hf⟩
    · next hout =>
      rcases List.mem_cons.1 h with rfl | h
      · simp only [beq_self_eq_true, and_true]
        simpa using hout
      · obtain ⟨hn, hf⟩ := ih _ h
        simp only [List.contains_cons, Bool.or_eq_false_iff, beq_eq_false_iff_ne] at hn
        rw [beq_eq_false_iff_ne.2 (Ne.symm hn.1)]
        exact ⟨hn.2, hf⟩

theorem Coherent.holds_of_mem_firsts (hc : scopes.Coherent) {l : Located α} (hs : scope ∈ scopes)
    (h : l ∈ scope.firsts α) : scopes.Holds l :=
  hc.holds_of_find? hs (find?_of_mem_firsts h)

end Scopes

end Yang

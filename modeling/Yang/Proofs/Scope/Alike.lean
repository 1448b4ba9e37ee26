import Yang.Proofs.Gather.Alike
import Yang.Proofs.Scope.Coherent

/-!
This module contains scopes that are alike document by document. References stand for corresponding definitions in them,
or are wrong for the same reason.
-/

namespace Yang

variable {exact : Prop} {r : Document → Document → Prop}

theorem Context.Alike.moduleOf?_eq {context context' : Context} (h : context.Alike r context') :
    context.moduleOf? = context'.moduleOf? := by
  funext reference
  cases reference with
  | none => exact congrArg some h.owner
  | some reference =>
    unfold Context.moduleOf?
    dsimp only
    rw [h.prefixes]

structure Corresponds (α : Type) [Defined α] (q : Document → α → α → Prop) (r : Document → Document → Prop) : Prop where
  name : ∀ {d : Document} {a b : α}, q d a b → Defined.name a = Defined.name b
  all : ∀ {d d' : Document}, r d d' → List.Forall₂ (q d) (Defined.all d.body) (Defined.all d'.body)

structure Located.Alike {α : Type} (q : Document → α → α → Prop) (r : Document → Document → Prop)
    (l l' : Located α) : Prop where
  definition : q l.context.document l.definition l'.definition
  context : l.context.Alike r l'.context

section

variable {α : Type} [Defined α] {q : Document → α → α → Prop} {scope scope' : Scope}

theorem Located.Alike.key_eq (hq : Corresponds α q r) {l l' : Located α} (h : l.Alike q r l') : l.key = l'.key := by
  unfold Located.key
  rw [h.context.owner, hq.name h.definition]

theorem Scope.Alike.definitions (hq : Corresponds α q r) (h : scope.Alike r scope') :
    List.Forall₂ (Located.Alike q r) (scope.definitions α) (scope'.definitions α) := by
  apply List.rel_flatMap h.contexts
  intro context context' hcontext
  rw [List.forall₂_map_left_iff, List.forall₂_map_right_iff]
  exact (hq.all hcontext.document).imp fun _ _ hab => ⟨hab, hcontext⟩

theorem Scope.Alike.find? (hq : Corresponds α q r) (h : scope.Alike r scope') (name : String) :
    Option.Rel (Located.Alike q r) (scope.find? name) (scope'.find? name) := by
  rw [Scope.find?_eq, Scope.find?_eq]
  apply rel_find? (h.definitions hq)
  intro l l' hl
  rw [hq.name hl.definition]

theorem Scope.Alike.firsts (hq : Corresponds α q r) (h : scope.Alike r scope') :
    List.Forall₂ (Located.Alike q r) (scope.firsts α) (scope'.firsts α) := by
  have hgo : ∀ {all all' : List (Located α)}, List.Forall₂ (Located.Alike q r) all all' → ∀ names,
      List.Forall₂ (Located.Alike q r) (Scope.firsts.go α names all) (Scope.firsts.go α names all') := by
    intro all all' hall
    induction hall with
    | nil => exact fun _ => .nil
    | cons hl _ ih =>
      intro names
      unfold Scope.firsts.go
      dsimp only
      rw [hq.name hl.definition]
      split
      · exact ih _
      · exact .cons hl (ih _)
  exact hgo (h.definitions hq) []

end

namespace Scopes

variable {scopes scopes' : Scopes}

theorem scope?_alike (hl : Likeness exact r) (hs : List.Forall₂ (Scope.Alike r) scopes scopes') (name : String) :
    Option.Rel (Scope.Alike r) (scopes.scope? name) (scopes'.scope? name) := by
  apply rel_find? hs
  intro scope scope' hscope
  rw [show scope.main.name = scope'.main.name from Document.name_eq (hl.outline hscope.main)]

theorem resolve_alike {α : Type} [Defined α] {q : Document → α → α → Prop} (hl : Likeness exact r)
    (hq : Corresponds α q r) (hs : List.Forall₂ (Scope.Alike r) scopes scopes') {context context' : Context}
    (hc : context.Alike r context') (text : String) :
    (∃ finding, (scopes.resolve context text : Except Finding (Located α)) = .error finding
        ∧ (scopes'.resolve context' text : Except Finding (Located α)) = .error finding)
      ∨ ∃ l l' : Located α, scopes.resolve context text = .ok l ∧ scopes'.resolve context' text = .ok l'
        ∧ l.Alike q r l' := by
  unfold resolve
  dsimp only
  rw [← hc.moduleOf?_eq]
  cases context.moduleOf? (Reference.ofText text).prefixId with
  | none => exact .inl ⟨_, rfl, rfl⟩
  | some name =>
    dsimp only
    have hfound : Option.Rel (Located.Alike q r)
        ((scopes.scope? name).bind (fun scope => scope.find? (Reference.ofText text).name))
        ((scopes'.scope? name).bind (fun scope => scope.find? (Reference.ofText text).name)) := by
      have hscope := scope?_alike hl hs name
      generalize scopes.scope? name = found at hscope
      generalize scopes'.scope? name = found' at hscope
      cases hscope with
      | none => exact .none
      | some hscope => exact hscope.find? hq _
    generalize (scopes.scope? name).bind _ = found at hfound
    generalize (scopes'.scope? name).bind _ = found' at hfound
    cases hfound with
    | none => exact .inl ⟨_, rfl, rfl⟩
    | some hlocated => exact .inr ⟨_, _, rfl, rfl, hlocated⟩

end Scopes

end Yang

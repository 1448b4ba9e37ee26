import Yang.Proofs.Scope.Coherent

/-!
This module contains scopes that are a part of others which no name leads out of: what a name in a document of the part
stands for, it also stands for in the whole.
-/

namespace Yang.Scopes

structure Part (part whole : Scopes) : Prop where
  scope? : ∀ name, (part.scope? name).isSome = true → whole.scope? name = part.scope? name
  closed : ∀ context, part.Shows context → ∀ prefixId name, context.moduleOf? prefixId = some name →
    (part.scope? name).isSome = true

variable {α : Type} [Defined α] {part whole : Scopes} {context : Context}

theorem Part.resolve (h : part.Part whole) (hshows : part.Shows context) (text : String) :
    (whole.resolve context text : Except Finding (Located α)) = part.resolve context text := by
  unfold Scopes.resolve
  dsimp only
  cases hname : context.moduleOf? (Reference.ofText text).prefixId with
  | none => rfl
  | some name =>
    dsimp only
    rw [h.scope? name (h.closed context hshows _ _ hname)]

theorem isSome_scope?_of_resolve (hc : part.Coherent) {text : String} {l : Located α}
    (h : part.resolve context text = .ok l) : (part.scope? l.context.owner).isSome = true := by
  have hholds := hc.holds_of_resolve h
  unfold Holds at hholds
  cases hscope : part.scope? l.context.owner with
  | none =>
    rw [hscope] at hholds
    cases hholds
  | some scope => rfl

end Yang.Scopes

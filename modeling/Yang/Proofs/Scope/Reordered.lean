import Yang.Proofs.Gather.Names
import Yang.Proofs.Schema.Reordered
import Yang.Proofs.Scope.Alike
import Yang.Proofs.Scope.Firsts
import Yang.Proofs.Typing.Meaning

/-!
This module contains scopes whose documents have statements in another order. As long as names are unambiguous,
references stand for the same definitions in them, and so for the same types.
-/

namespace Yang

abbrev Context.Reordered (context context' : Context) : Prop :=
  context.Alike Document.Reordered context'

abbrev Scope.Reordered (scope scope' : Scope) : Prop :=
  scope.Alike Document.Reordered scope'

class Reorders (α : Type) [Defined α] where
  rel : α → α → Prop
  name : ∀ {a b : α}, rel a b → Defined.name a = Defined.name b
  all : ∀ {d d' : Document}, d.Reordered d' → Shuffled rel (Defined.all d.body) (Defined.all d'.body)
  distinct : ∀ {scope : Scope}, scope.Unambiguous →
    ((scope.definitions α).map (fun l => Defined.name l.definition)).Nodup

instance : Reorders Typedef where
  rel := Eq
  name := fun h => by rw [h]
  all := fun h => ⟨_, List.forall₂_same.2 fun _ _ => rfl, h.typedefs⟩
  distinct := Scope.Unambiguous.typedefs

instance : Reorders Grouping where
  rel := Grouping.Reordered
  name := Grouping.Reordered.name
  all := Document.Reordered.groupings
  distinct := Scope.Unambiguous.groupings

structure Located.Reordered {α : Type} [Defined α] [Reorders α] (l l' : Located α) : Prop where
  definition : Reorders.rel l.definition l'.definition
  context : l.context.Reordered l'.context

theorem Context.Reordered.symm {context context' : Context} (h : context.Reordered context') :
    context'.Reordered context :=
  ⟨h.document.symm, h.owner.symm, h.prefixes.symm⟩

theorem Scope.Reordered.symm {scope scope' : Scope} (h : scope.Reordered scope') : scope'.Reordered scope :=
  ⟨h.main.symm, h.contexts.flip.imp fun _ _ hc => Context.Reordered.symm hc⟩

section

variable {α : Type} [Defined α] [Reorders α] {l l' : Located α} {scope scope' : Scope}

theorem Located.Reordered.name_eq (h : l.Reordered l') : Defined.name l.definition = Defined.name l'.definition :=
  Reorders.name h.definition

theorem Located.Reordered.key_eq (h : l.Reordered l') : l.key = l'.key := by
  unfold Located.key
  rw [h.context.owner, h.name_eq]

theorem Scope.Reordered.definition (h : scope.Reordered scope') (hl : l ∈ scope.definitions α) :
    ∃ l' ∈ scope'.definitions α, l.Reordered l' := by
  obtain ⟨context, hc, hl⟩ := List.mem_flatMap.1 hl
  obtain ⟨definition, hd, rfl⟩ := List.mem_map.1 hl
  obtain ⟨context', hc', hcontext⟩ := exists_of_mem_of_forall₂ h.contexts hc
  obtain ⟨definition', hd', hdefinition⟩ := (Reorders.all hcontext.document).exists_of_mem hd
  refine ⟨⟨definition', context'⟩, ?_, hdefinition, hcontext⟩
  exact List.mem_flatMap.2 ⟨context', hc', List.mem_map_of_mem hd'⟩

theorem Scope.find?_of_mem (hu : scope.Unambiguous) (hl : l ∈ scope.definitions α) :
    scope.find? (Defined.name l.definition) = some l := by
  rw [Scope.find?_eq]
  exact find?_eq_some_of_mem (Reorders.distinct hu) hl

theorem Scope.mem_firsts_of_mem (hu : scope.Unambiguous) (hl : l ∈ scope.definitions α) : l ∈ scope.firsts α :=
  Scopes.mem_firsts_of_find? (Scope.find?_of_mem hu hl)

theorem Scope.Reordered.find? (h : scope.Reordered scope') (hu : scope'.Unambiguous) {name : String}
    (hl : scope.find? name = some l) : ∃ l', scope'.find? name = some l' ∧ l.Reordered l' := by
  obtain ⟨hmem, rfl⟩ := Scopes.find?_spec hl
  obtain ⟨l', hmem', hreordered⟩ := h.definition hmem
  refine ⟨l', ?_, hreordered⟩
  rw [hreordered.name_eq]
  exact Scope.find?_of_mem hu hmem'

end

namespace Scopes

structure Reordered (scopes scopes' : Scopes) : Prop where
  alike : List.Forall₂ Scope.Reordered scopes scopes'
  unambiguous : ∀ scope ∈ scopes, scope.Unambiguous
  unambiguous' : ∀ scope ∈ scopes', scope.Unambiguous

variable {scopes scopes' : Scopes} {context context' : Context}

theorem Reordered.scope? (h : scopes.Reordered scopes') {name : String} {scope : Scope}
    (hs : scopes.scope? name = some scope) : ∃ scope', scopes'.scope? name = some scope' ∧ scope.Reordered scope' := by
  have hrel := scope?_alike Document.likeness_reordered h.alike name
  rw [hs] at hrel
  exact exists_of_rel hrel

theorem Reordered.resolve {α : Type} [Defined α] [Reorders α] (h : scopes.Reordered scopes')
    (hc : context.Reordered context') {text : String} {l : Located α} (hl : scopes.resolve context text = .ok l) :
    ∃ l', scopes'.resolve context' text = .ok l' ∧ l.Reordered l' := by
  obtain ⟨name, scope, hname, hscope, hfind⟩ := resolve_spec hl
  obtain ⟨scope', hscope', hs⟩ := h.scope? hscope
  obtain ⟨l', hfind', hreordered⟩ := hs.find? (h.unambiguous' scope' (scope?_spec hscope').1) hfind
  refine ⟨l', ?_, hreordered⟩
  unfold Scopes.resolve
  dsimp only
  rw [← hc.moduleOf?_eq, hname]
  dsimp only
  rw [hscope', Option.bind_some, hfind']

theorem Denotes.reordered (h : scopes.Reordered scopes') {reference : String} {declared : Restrictions}
    {type : ResolvedType} (hd : scopes.Denotes context reference declared type) (hc : context.Reordered context') :
    scopes'.Denotes context' reference declared type := by
  induction hd generalizing context' with
  | builtin hb => exact .builtin hb
  | derived hb hfound _ ih =>
    obtain ⟨found', hfound', hreordered⟩ := h.resolve hc hfound
    have hinner := ih hreordered.context
    rw [hreordered.definition] at hinner ⊢
    exact .derived hb hfound' hinner

theorem Defines.reordered (h : scopes.Reordered scopes') {l l' : Located Typedef} {type : ResolvedType}
    (hd : scopes.Defines l type) (hl : l.Reordered l') : scopes'.Defines l' type := by
  obtain ⟨inner, hinner, rfl⟩ := hd
  have hdefinition : l.definition = l'.definition := hl.definition
  rw [hdefinition] at hinner ⊢
  exact ⟨inner, hinner.reordered h hl.context, rfl⟩

end Scopes

end Yang

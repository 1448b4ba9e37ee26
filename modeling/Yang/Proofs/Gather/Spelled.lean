import Yang.Proofs.Gather.Closed

/-!
This module contains where the contents of gathered scopes come from: the documents are loaded, and a prefix that stands
for a module in a document is one that the document spells.
-/

namespace Yang

def Context.Spelled (context : Context) : Prop :=
  ∀ p ∈ context.prefixes,
    p.1 = context.document.body.prefixId ∨ ∃ i ∈ context.document.body.imports, i.prefixId = p.1

namespace Gathering

variable {files : Files} {g g' : Gathering}

theorem bindImports_prefixes (files : Files) (known : List String) (context : Context) (g : Gathering)
    (imports : List Import) :
    (bindImports files known context g imports).1.document = context.document
      ∧ ∀ p ∈ (bindImports files known context g imports).1.prefixes,
        p ∈ context.prefixes ∨ ∃ i ∈ imports, i.prefixId = p.1 := by
  induction imports generalizing context g with
  | nil => exact ⟨rfl, fun p hp => .inl hp⟩
  | cons i rest ih =>
    have hlater : ∀ {p : String × String}, (∃ other ∈ rest, other.prefixId = p.1) →
        ∃ other ∈ i :: rest, other.prefixId = p.1 :=
      fun ⟨other, hother, hp⟩ => ⟨other, List.mem_cons_of_mem _ hother, hp⟩
    unfold bindImports
    split
    · obtain ⟨hdocument, hprefixes⟩ := ih context (g.report _)
      exact ⟨hdocument, fun p hp => (hprefixes p hp).imp_right hlater⟩
    · split
      · obtain ⟨hdocument, hprefixes⟩ := ih context (g.report _)
        exact ⟨hdocument, fun p hp => (hprefixes p hp).imp_right hlater⟩
      · generalize g.look Store.findModule files i.moduleName = looked
        obtain ⟨found, g'⟩ := looked
        cases found with
        | none =>
          obtain ⟨hdocument, hprefixes⟩ := ih context (g'.report (context.problem (.importNotFound i.moduleName)))
          exact ⟨hdocument, fun p hp => (hprefixes p hp).imp_right hlater⟩
        | some m =>
          dsimp only
          obtain ⟨hdocument, hprefixes⟩ :=
            ih { context with prefixes := context.prefixes ++ [(i.prefixId, i.moduleName)] } g'
          refine ⟨hdocument, fun p hp => ?_⟩
          rcases hprefixes p hp with hp | hp
          · rcases List.mem_append.1 hp with hp | hp
            · exact .inl hp
            · rw [List.mem_singleton.1 hp]
              exact .inr ⟨i, List.mem_cons_self, rfl⟩
          · exact .inr (hlater hp)

theorem contextualise_spelled (files : Files) (known : List String) (owner : String)
    (typedefs : Table Typedef) (groupings : Table Grouping) (g : Gathering) (documents : List Document) :
    ∀ context ∈ (contextualise files known owner typedefs groupings g documents).1,
      context.document ∈ documents ∧ context.Spelled := by
  induction documents generalizing typedefs groupings g with
  | nil => exact List.forall_mem_nil _
  | cons document rest ih =>
    unfold contextualise
    dsimp only
    rw [List.forall_mem_cons]
    constructor
    · obtain ⟨hdocument, hprefixes⟩ := bindImports_prefixes files known (.first owner document) g document.body.imports
      unfold Context.Spelled
      rw [hdocument]
      refine ⟨List.mem_cons_self, fun p hp => ?_⟩
      rcases hprefixes p hp with hp | hp
      · rw [List.mem_singleton.1 hp]
        exact .inl rfl
      · exact .inr hp
    · intro context hcontext
      obtain ⟨hdocument, hspelled⟩ := ih _ _ _ context hcontext
      exact ⟨List.mem_cons_of_mem _ hdocument, hspelled⟩

def Spelled (store : Store) (scopes : Scopes) : Prop :=
  ∀ scope ∈ scopes, ∀ context ∈ scope.contexts, store.Loaded context.document ∧ context.Spelled

theorem scope_spelled (files : Files) (known : List String) {main : Module} (hm : main ∈ g.store.modules) :
    Spelled (scope files known main g).2.2.store [(scope files known main g).1] := by
  unfold Spelled scope
  dsimp only
  rw [List.forall_mem_singleton]
  intro context hcontext
  obtain ⟨_, hloaded⟩ := steps_closure_main files hm
  generalize closure files main.name [] g [.main main] = closed at hloaded hcontext ⊢
  obtain ⟨documents, g₁⟩ := closed
  obtain ⟨hdocument, hspelled⟩ := contextualise_spelled files known main.name [] [] g₁ documents context hcontext
  have hsteps : Steps files g₁ ((contextualise files known main.name [] [] g₁ documents).2.2.note
      (.collected main.name documents.length)) :=
    (steps_contextualise files known main.name [] [] hloaded).trans (.single (.note _ _ _))
  exact ⟨hsteps.extends.loaded (hloaded _ hdocument), hspelled⟩

theorem Spelled.mono {store store' : Store} {scopes : Scopes} (h : Spelled store scopes)
    (hextends : store.Extends store') : Spelled store' scopes := by
  intro scope hs context hcontext
  obtain ⟨hloaded, hspelled⟩ := h scope hs context hcontext
  exact ⟨hextends.loaded hloaded, hspelled⟩

theorem Runs.spelled {scopes final : Scopes} {needed : List String} (h : Runs files scopes needed g final g')
    (hs : Spelled g.store scopes) : Spelled g'.store final := by
  induction h with
  | done => exact hs
  | @scope scopes final needed rest main g g' hnext _ ih =>
    have hmain := (next_spec hnext).1
    apply ih
    unfold Spelled
    rw [List.forall_mem_append]
    exact ⟨hs.mono (steps_scope files _ hmain).extends, scope_spelled files _ hmain⟩

end Gathering

end Yang

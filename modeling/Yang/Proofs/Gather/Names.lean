import Yang.Proofs.Gather.Alike
import Yang.Proofs.Gather.Closed

/-!
This module contains what holds of gathered scopes when no problem was found: all definitions of a scope have different
names, so that their order does not matter.
-/

namespace Yang

structure Scope.Unambiguous (scope : Scope) : Prop where
  typedefs : ((scope.definitions Typedef).map (fun l => Defined.name l.definition)).Nodup
  groupings : ((scope.definitions Grouping).map (fun l => Defined.name l.definition)).Nodup

namespace Gathering

variable {files : Files} {g g' : Gathering}

theorem Step.later (h : Step files g g') : g.problems <+: g'.problems := by
  cases h with
  | report d => exact List.prefix_append _ _
  | note _ name n =>
    unfold Gathering.note
    split
    · exact List.prefix_refl _
    · exact List.prefix_refl _
  | look get _ _ =>
    unfold Gathering.look
    split
    · exact List.prefix_refl _
    · split
      · exact List.prefix_refl _
      · exact List.prefix_append _ _
      · exact List.prefix_refl _

theorem Steps.later (h : Steps files g g') : g.problems <+: g'.problems := by
  apply Steps.lift (p := fun g' => g.problems <+: g'.problems) _ h (List.prefix_refl _)
  exact fun hstep hprefix => hprefix.trans hstep.later

theorem Steps.problems_eq_nil (h : Steps files g g') (hnil : g'.problems = []) : g.problems = [] := by
  have hlater := h.later
  rw [hnil, List.prefix_nil] at hlater
  exact hlater

def names (α : Type) [Defined α] (documents : List Document) : List String :=
  documents.flatMap (fun d => (Defined.all (α := α) d.body).map Defined.name)

theorem names_definitions {α : Type} [Defined α] (scope : Scope) :
    (scope.definitions α).map (fun l => Defined.name l.definition) = names α (scope.contexts.map Context.document) := by
  unfold names Scope.definitions
  rw [List.map_flatMap, List.flatMap_map]
  simp only [List.map_map]
  rfl

theorem enterAll_eq_nil {α : Type} [Defined α] {context : Context} {table : Table α} {l : List α}
    (hnil : (enterAll α context table g l).2.problems = []) :
    g.problems = [] ∧ (l.map Defined.name).Nodup ∧ ∀ name ∈ l.map Defined.name, name ∉ table.names := by
  rw [(enterAll_spec context table g l).2] at hnil
  dsimp only at hnil
  rw [List.append_eq_nil_iff, List.map_eq_nil_iff, repeated_eq_nil_iff] at hnil
  exact hnil

theorem nodup_append_of_taken {first rest taken taken' : List String} (hfirst : first.Nodup)
    (hnew : ∀ name ∈ first, name ∉ taken) (hrest : rest.Nodup) (hnew' : ∀ name ∈ rest, name ∉ taken')
    (htaken : ∀ name, name ∈ taken' ↔ name ∈ taken ∨ name ∈ first) :
    (first ++ rest).Nodup ∧ ∀ name ∈ first ++ rest, name ∉ taken := by
  rw [List.nodup_append]
  refine ⟨⟨hfirst, hrest, ?_⟩, fun name hname => ?_⟩
  · rintro name hn _ hn' rfl
    exact hnew' name hn' ((htaken name).2 (.inr hn))
  · rcases List.mem_append.1 hname with hn | hn
    · exact hnew name hn
    · exact fun hin => hnew' name hn ((htaken name).2 (.inl hin))

theorem contextualise_names (known : List String) (owner : String) {typedefs : Table Typedef}
    {groupings : Table Grouping} {documents : List Document} (hd : ∀ d ∈ documents, g.store.Loaded d)
    (hnil : (contextualise files known owner typedefs groupings g documents).2.2.problems = []) :
    ((names Typedef documents).Nodup ∧ ∀ name ∈ names Typedef documents, name ∉ typedefs.names)
      ∧ (names Grouping documents).Nodup ∧ ∀ name ∈ names Grouping documents, name ∉ groupings.names := by
  induction documents generalizing typedefs groupings g with
  | nil => simp [names]
  | cons document rest ih =>
    rw [List.forall_mem_cons] at hd
    have hw : ∀ i ∈ document.body.imports, g.store.Wanted i.moduleName :=
      fun i hi => ⟨document, hd.1, .inr ⟨i, hi, rfl⟩⟩
    unfold contextualise at hnil
    dsimp only at hnil
    have hbound := steps_bindImports files known (.first owner document) hw
    generalize bindImports files known (.first owner document) g document.body.imports = bound at hbound hnil
    obtain ⟨context, needed, g₁⟩ := bound
    dsimp only at hbound hnil
    have htypedefs := steps_enterAll files Typedef context typedefs g₁ document.body.typedefs
    have hmem := @mem_names_enterAll Typedef _ context typedefs g₁ document.body.typedefs
    have hnew := @enterAll_eq_nil g₁ Typedef _ context typedefs document.body.typedefs
    generalize enterAll Typedef context typedefs g₁ document.body.typedefs = checked at htypedefs hmem hnew hnil
    obtain ⟨typedefs', g₂⟩ := checked
    dsimp only at htypedefs hmem hnew hnil
    have hgroupings := steps_enterAll files Grouping context groupings g₂ document.body.groupings
    have hmem' := @mem_names_enterAll Grouping _ context groupings g₂ document.body.groupings
    have hnew' := @enterAll_eq_nil g₂ Grouping _ context groupings document.body.groupings
    generalize enterAll Grouping context groupings g₂ document.body.groupings = checked at hgroupings hmem' hnew' hnil
    obtain ⟨groupings', g₃⟩ := checked
    dsimp only at hgroupings hmem' hnew' hnil
    have hsteps : Steps files g g₃ := (hbound.trans htypedefs).trans hgroupings
    have hloaded : ∀ d ∈ rest, g₃.store.Loaded d := fun d hmem => hsteps.extends.loaded (hd.2 d hmem)
    -- there was no problem at any of the points in between
    have hnil₃ := (steps_contextualise files known owner typedefs' groupings' hloaded).problems_eq_nil hnil
    obtain ⟨⟨hnodup, hapart⟩, hnodup', hapart'⟩ := ih hloaded hnil
    obtain ⟨hnil₂, hfirst', hout'⟩ := hnew' hnil₃
    obtain ⟨_, hfirst, hout⟩ := hnew hnil₂
    unfold names
    rw [List.flatMap_cons, List.flatMap_cons]
    exact ⟨nodup_append_of_taken hfirst hout hnodup hapart fun _ => hmem,
      nodup_append_of_taken hfirst' hout' hnodup' hapart' fun _ => hmem'⟩

theorem scope_unambiguous (known : List String) {main : Module} (hm : main ∈ g.store.modules)
    (hnil : (scope files known main g).2.2.problems = []) : (scope files known main g).1.Unambiguous := by
  unfold scope at hnil ⊢
  dsimp only at hnil ⊢
  obtain ⟨_, hloaded⟩ := steps_closure_main files hm
  generalize closure files main.name [] g [.main main] = closed at hloaded hnil ⊢
  obtain ⟨documents, g₁⟩ := closed
  dsimp only at hloaded hnil ⊢
  have hnote : Steps files _ _ := .single (.note (contextualise files known main.name [] [] g₁ documents).2.2
    main.name documents.length)
  obtain ⟨⟨htypedefs, _⟩, hgroupings, _⟩ := contextualise_names known main.name hloaded (hnote.problems_eq_nil hnil)
  obtain ⟨hdocuments, _⟩ := contextualise_spec files known main.name [] [] hloaded
  rw [← hdocuments] at htypedefs hgroupings
  constructor
  · rw [names_definitions]
    exact htypedefs
  · rw [names_definitions]
    exact hgroupings

theorem Runs.unambiguous {scopes final : Scopes} {needed : List String} (h : Runs files scopes needed g final g')
    (hnil : g'.problems = []) (hs : ∀ scope ∈ scopes, scope.Unambiguous) : ∀ scope ∈ final, scope.Unambiguous := by
  induction h with
  | done => exact hs
  | @scope scopes final needed rest main g g' hnext hmore ih =>
    apply ih hnil
    intro s hmem
    rcases List.mem_append.1 hmem with hmem | hmem
    · exact hs s hmem
    · rw [List.mem_singleton.1 hmem]
      exact scope_unambiguous _ (next_spec hnext).1 (hmore.steps.problems_eq_nil hnil)

end Gathering

end Yang

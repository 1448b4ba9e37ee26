import Mathlib.Logic.Relation
import Yang.Proofs.Store.Extends
import Yang.Scope.Gather

/-!
This module contains the steps of which every gathering consists: a problem is reported, the end of a scope is noted,
or a record is looked for. What one such step keeps is kept by a whole gathering.
-/

namespace Yang

namespace Gathering

inductive Step (files : Files) : Gathering → Gathering → Prop
  | report (g : Gathering) (d : Diagnostic) : Step files g (g.report d)
  | note (g : Gathering) (name : String) (n : Nat) : Step files g (g.note (.collected name n))
  | look {α : Type} (get : Store → String → Option α) (g : Gathering) {name : String} (h : g.store.Wanted name) :
    Step files g (g.look (Store.find get) files name).2

abbrev Steps (files : Files) : Gathering → Gathering → Prop :=
  Relation.ReflTransGen (Step files)

theorem Steps.lift {files : Files} {p : Gathering → Prop} (hp : ∀ {g g'}, Step files g g' → p g → p g')
    {g g' : Gathering} (h : Steps files g g') (hg : p g) : p g' := by
  induction h with
  | refl => exact hg
  | tail _ hstep ih => exact hp hstep ih

theorem look_store_or {α : Type} (get : Store → String → Option α) (files : Files) (name : String)
    (g : Gathering) :
    (g.look (Store.find get) files name).2.store = g.store
      ∨ (g.look (Store.find get) files name).2.store = (Store.find get g.store files name).2 := by
  unfold look
  split
  · exact .inl rfl
  · right
    split
    · next heq => rw [heq]
    · next heq =>
      rw [heq]
      rfl
    · next heq => rw [heq]

theorem extends_look {α : Type} (get : Store → String → Option α) (files : Files) (name : String) (g : Gathering) :
    g.store.Extends (g.look (Store.find get) files name).2.store := by
  -- nothing is looked for any more after a breakdown
  rcases look_store_or get files name g with h | h
  · rw [h]
    exact Store.Extends.refl _
  · rw [h]
    exact Store.extends_find get g.store files name

theorem running_of_look {α : Type} {get : Store → String → Option α} {files : Files} {name : String} {g : Gathering}
    (h : (g.look (Store.find get) files name).2.breakdown = none) : g.breakdown = none := by
  unfold look at h
  split at h
  · exact h
  · next hrunning => simpa using hrunning

theorem Step.extends {files : Files} {g g' : Gathering} (h : Step files g g') :
    g.store.Extends g'.store := by
  cases h with
  | report d => exact Store.Extends.refl _
  | note name n =>
    unfold Gathering.note
    split
    · exact Store.Extends.refl _
    · exact ⟨rfl, List.prefix_refl _, List.prefix_refl _⟩
  | look get => exact extends_look get files _ g

theorem Steps.extends {files : Files} {g g' : Gathering} (h : Steps files g g') :
    g.store.Extends g'.store :=
  Steps.lift (p := fun g' => g.store.Extends g'.store) (fun hs hg => hg.trans hs.extends) h
    (Store.Extends.refl _)

theorem steps_report (files : Files) (g : Gathering) (d : Diagnostic) : Steps files g (g.report d) :=
  .single (.report g d)

theorem submodule?_of_look {files : Files} {name : String} {g : Gathering} {found : Submodule}
    (h : (g.look Store.findSubmodule files name).1 = some found) :
    (g.look Store.findSubmodule files name).2.store.submodule? name = some found :=
  get_of_look h

theorem module?_of_look {files : Files} {name : String} {g : Gathering} {found : Module}
    (h : (g.look Store.findModule files name).1 = some found) :
    (g.look Store.findModule files name).2.store.module? name = some found :=
  get_of_look h

theorem steps_mention (files : Files) (owner : String) (document : Document) (mentioned : List String)
    {g : Gathering} {names : List String} (hw : ∀ name ∈ names, g.store.Wanted name) :
    Steps files g (mention files owner document mentioned g names).2.2
      ∧ ∀ d ∈ (mention files owner document mentioned g names).1,
        (mention files owner document mentioned g names).2.2.store.Loaded d := by
  induction names generalizing mentioned g with
  | nil => exact ⟨.refl, fun d hd => nomatch hd⟩
  | cons name rest ih =>
    rw [List.forall_mem_cons] at hw
    unfold mention
    split
    · apply ih
      exact hw.2
    · have hlook : Steps files g (g.look Store.findSubmodule files name).2 := .single (.look _ g hw.1)
      have hget := @submodule?_of_look files name g
      generalize g.look Store.findSubmodule files name = looked at hlook hget
      obtain ⟨found, g'⟩ := looked
      dsimp only at hlook hget ⊢
      -- loading adds documents behind others, so the names that are left are still wanted
      have hrest : ∀ other ∈ rest, g'.store.Wanted other :=
        fun other hother => hlook.extends.wanted (hw.2 other hother)
      cases found with
      | none =>
        obtain ⟨hsteps, hloaded⟩ := @ih (name :: mentioned) (g'.report _) hrest
        exact ⟨(hlook.trans (steps_report _ _ _)).trans hsteps, hloaded⟩
      | some s =>
        dsimp only
        split
        · obtain ⟨hsteps, hloaded⟩ := @ih (name :: mentioned) g' hrest
          refine ⟨hlook.trans hsteps, fun d hd => ?_⟩
          rcases List.mem_cons.1 hd with rfl | hd
          · apply hsteps.extends.loaded
            exact List.mem_of_find?_eq_some (hget rfl)
          · exact hloaded d hd
        · obtain ⟨hsteps, hloaded⟩ := @ih (name :: mentioned) (g'.report _) hrest
          exact ⟨(hlook.trans (steps_report _ _ _)).trans hsteps, hloaded⟩

theorem steps_closure (files : Files) (owner : String) (mentioned : List String) (g : Gathering)
    (queue : List Document) (hq : ∀ d ∈ queue, g.store.Loaded d) :
    Steps files g (closure files owner mentioned g queue).2
      ∧ ∀ d ∈ (closure files owner mentioned g queue).1, (closure files owner mentioned g queue).2.store.Loaded d := by
  fun_induction closure files owner mentioned g queue with
  | case1 => exact ⟨.refl, hq⟩
  | case2 mentioned g document rest r more g' heq ih =>
    rw [List.forall_mem_cons] at hq
    have hw : ∀ name ∈ document.body.includes, g.store.Wanted name :=
      fun name hname => ⟨document, hq.1, .inl hname⟩
    obtain ⟨hsteps, hparts⟩ := steps_mention files owner document mentioned hw
    have hqueue : ∀ d ∈ rest ++ r.1, r.2.2.store.Loaded d := by
      intro d hd
      rcases List.mem_append.1 hd with hd | hd
      · exact hsteps.extends.loaded (hq.2 d hd)
      · exact hparts d hd
    obtain ⟨hmore, hloaded⟩ := ih hqueue
    rw [heq] at hmore hloaded
    have hall : Steps files g g' := hsteps.trans hmore
    refine ⟨hall, ?_⟩
    rw [List.forall_mem_cons]
    exact ⟨hall.extends.loaded hq.1, hloaded⟩

theorem steps_bindImports (files : Files) (known : List String) (context : Context) {g : Gathering}
    {imports : List Import} (hw : ∀ i ∈ imports, g.store.Wanted i.moduleName) :
    Steps files g (bindImports files known context g imports).2.2 := by
  induction imports generalizing context g with
  | nil => exact .refl
  | cons i rest ih =>
    rw [List.forall_mem_cons] at hw
    unfold bindImports
    split
    · exact (steps_report _ _ _).trans (@ih _ (g.report _) hw.2)
    · split
      · exact (steps_report _ _ _).trans (@ih _ (g.report _) hw.2)
      · have hlook : Steps files g (g.look Store.findModule files i.moduleName).2 := .single (.look _ g hw.1)
        generalize g.look Store.findModule files i.moduleName = looked at hlook
        obtain ⟨found, g'⟩ := looked
        dsimp only at hlook ⊢
        have hrest : ∀ other ∈ rest, g'.store.Wanted other.moduleName :=
          fun other hother => hlook.extends.wanted (hw.2 other hother)
        cases found with
        | none => exact (hlook.trans (steps_report _ _ _)).trans (@ih _ (g'.report _) hrest)
        | some m => exact hlook.trans (ih _ hrest)

theorem steps_enterAll (files : Files) (α : Type) [Defined α] (context : Context) (table : Table α)
    (g : Gathering) (l : List α) : Steps files g (enterAll α context table g l).2 := by
  induction l generalizing table g with
  | nil => exact .refl
  | cons definition rest ih =>
    unfold enterAll
    dsimp only
    split
    · exact (steps_report _ _ _).trans (ih _ _)
    · apply ih

theorem steps_contextualise (files : Files) (known : List String) (owner : String)
    (typedefs : Table Typedef) (groupings : Table Grouping) {g : Gathering} {documents : List Document}
    (hd : ∀ d ∈ documents, g.store.Loaded d) :
    Steps files g (contextualise files known owner typedefs groupings g documents).2.2 := by
  induction documents generalizing typedefs groupings g with
  | nil => exact .refl
  | cons document rest ih =>
    rw [List.forall_mem_cons] at hd
    have hw : ∀ i ∈ document.body.imports, g.store.Wanted i.moduleName :=
      fun i hi => ⟨document, hd.1, .inr ⟨i, hi, rfl⟩⟩
    unfold contextualise
    dsimp only
    have hbound := steps_bindImports files known (.first owner document) hw
    generalize bindImports files known (.first owner document) g document.body.imports = bound at hbound ⊢
    obtain ⟨context, needed, g₁⟩ := bound
    dsimp only at hbound ⊢
    have htypedefs := steps_enterAll files Typedef context typedefs g₁ document.body.typedefs
    generalize enterAll Typedef context typedefs g₁ document.body.typedefs = checked at htypedefs ⊢
    obtain ⟨typedefs', g₂⟩ := checked
    dsimp only at htypedefs ⊢
    have hgroupings := steps_enterAll files Grouping context groupings g₂ document.body.groupings
    generalize enterAll Grouping context groupings g₂ document.body.groupings = checked at hgroupings ⊢
    obtain ⟨groupings', g₃⟩ := checked
    dsimp only at hgroupings ⊢
    have hsteps : Steps files g g₃ := (hbound.trans htypedefs).trans hgroupings
    apply hsteps.trans
    apply ih
    exact fun d hmem => hsteps.extends.loaded (hd.2 d hmem)

theorem steps_closure_main (files : Files) {main : Module} {g : Gathering} (hm : main ∈ g.store.modules) :
    Steps files g (closure files main.name [] g [.main main]).2
      ∧ ∀ d ∈ (closure files main.name [] g [.main main]).1,
        (closure files main.name [] g [.main main]).2.store.Loaded d := by
  apply steps_closure
  rw [List.forall_mem_singleton]
  exact hm

theorem steps_scope (files : Files) (known : List String) {main : Module} {g : Gathering}
    (hm : main ∈ g.store.modules) : Steps files g (scope files known main g).2.2 := by
  unfold scope
  dsimp only
  obtain ⟨hsteps, hloaded⟩ := steps_closure_main files hm
  apply hsteps.trans
  apply (steps_contextualise files known main.name [] [] hloaded).trans
  exact .single (.note _ _ _)

theorem all_of_next_eq_none {files : Files} {scopes : Scopes} {needed : List String} {g : Gathering}
    (h : next g.store scopes needed = none) : all files scopes needed g = (scopes, g) := by
  unfold all
  split
  · rfl
  · next heq =>
    rw [h] at heq
    cases heq

theorem all_of_next_eq_some {files : Files} {scopes : Scopes} {needed rest : List String} {main : Module}
    {g : Gathering} (h : next g.store scopes needed = some (main, rest)) :
    all files scopes needed g
      = (let r := scope files (scopedNames scopes) main g
        all files (scopes ++ [r.1]) (rest ++ r.2.1) r.2.2) := by
  rw [all]
  split
  · next heq =>
    rw [h] at heq
    cases heq
  · next heq =>
    rw [h] at heq
    cases heq
    rfl

/--
The runs of a gathering of scopes: one more scope is gathered as long as there is a next module.
-/
inductive Runs (files : Files) : Scopes → List String → Gathering → Scopes → Gathering → Prop
  | done {scopes : Scopes} {needed : List String} {g : Gathering} (h : next g.store scopes needed = none) :
    Runs files scopes needed g scopes g
  | scope {scopes final : Scopes} {needed rest : List String} {main : Module} {g g' : Gathering}
    (h : next g.store scopes needed = some (main, rest))
    (more : Runs files (scopes ++ [(scope files (scopedNames scopes) main g).1])
      (rest ++ (scope files (scopedNames scopes) main g).2.1)
      (scope files (scopedNames scopes) main g).2.2 final g') :
    Runs files scopes needed g final g'

theorem runs_all (files : Files) (scopes : Scopes) (needed : List String) (g : Gathering) :
    Runs files scopes needed g (all files scopes needed g).1 (all files scopes needed g).2 := by
  fun_induction all files scopes needed g with
  | case1 scopes needed g h => exact .done h
  | case2 scopes needed g main rest h r ih => exact .scope h ih

theorem Runs.all_eq {files : Files} {scopes final : Scopes} {needed : List String} {g g' : Gathering}
    (h : Runs files scopes needed g final g') : all files scopes needed g = (final, g') := by
  induction h with
  | done hnext => exact all_of_next_eq_none hnext
  | scope hnext _ ih =>
    rw [all_of_next_eq_some hnext]
    exact ih

theorem Runs.steps {files : Files} {scopes final : Scopes} {needed : List String} {g g' : Gathering}
    (h : Runs files scopes needed g final g') : Steps files g g' := by
  induction h with
  | done => exact .refl
  | scope hnext _ ih => exact (steps_scope _ _ (next_spec hnext).1).trans ih

end Gathering

end Yang

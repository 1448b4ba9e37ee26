import Yang.Proofs.Gather.Names
import Yang.Proofs.Store.Widened

/-!
This module contains gatherings along a longer search path. A gathering that finds no problem has found everything that
it looked for, so it takes the same way with further directories, whatever files are in them.
-/

namespace Yang

namespace Gathering

def widen (more : List Path) (g : Gathering) : Gathering :=
  { g with store := g.store.widen more }

variable {files : Files} {more : List Path} {g : Gathering}

theorem report_ne_nil {g g' : Gathering} {d : Diagnostic} (h : Steps files (g.report d) g') : g'.problems ≠ [] := by
  intro hnil
  have hreport := h.problems_eq_nil hnil
  simp [report] at hreport

theorem widen_look {α : Type} {get : Store → String → Option α}
    (hget : ∀ store name, get (store.widen more) name = get store name) {name : String} {found : α}
    (h : (g.look (Store.find get) files name).1 = some found) :
    (g.widen more).look (Store.find get) files name
      = (some found, (g.look (Store.find get) files name).2.widen more) := by
  unfold look at h ⊢
  rw [show (g.widen more).breakdown = g.breakdown from rfl]
  split at h
  · cases h
  · next hrunning =>
    rw [if_neg hrunning, if_neg hrunning]
    have hfind := @Store.widen_find g.store files name _ get more hget found
    generalize Store.find get g.store files name = result at h hfind ⊢
    obtain ⟨outcome, store⟩ := result
    cases outcome with
    | error refusal => cases refusal <;> cases h
    | ok record =>
      dsimp only at h hfind ⊢
      subst h
      rw [show (g.widen more).store = g.store.widen more from rfl, hfind rfl]
      rfl

theorem widen_mention (owner : String) (document : Document) (mentioned : List String) {names : List String}
    (hw : ∀ name ∈ names, g.store.Wanted name)
    (hnil : (mention files owner document mentioned g names).2.2.problems = []) :
    mention files owner document mentioned (g.widen more) names
      = (let r := mention files owner document mentioned g names
        (r.1, r.2.1, r.2.2.widen more)) := by
  induction names generalizing mentioned g with
  | nil => rfl
  | cons name rest ih =>
    rw [List.forall_mem_cons] at hw
    unfold mention at hnil ⊢
    split at hnil
    · next hin =>
      rw [if_pos hin, if_pos hin]
      exact ih mentioned hw.2 hnil
    · next hnew =>
      rw [if_neg hnew, if_neg hnew]
      have hlook : Steps files g (g.look Store.findSubmodule files name).2 := .single (.look _ g hw.1)
      have hwiden : ∀ s, (g.look Store.findSubmodule files name).1 = some s →
          (g.widen more).look Store.findSubmodule files name
            = (some s, (g.look Store.findSubmodule files name).2.widen more) := fun s => widen_look fun _ _ => rfl
      generalize g.look Store.findSubmodule files name = looked at hlook hwiden hnil ⊢
      obtain ⟨found, g'⟩ := looked
      have hrest : ∀ other ∈ rest, g'.store.Wanted other :=
        fun other hother => hlook.extends.wanted (hw.2 other hother)
      have hloud : ∀ d, (mention files owner document (name :: mentioned) (g'.report d) rest).2.2.problems ≠ [] :=
        fun d => report_ne_nil (@steps_mention files owner document (name :: mentioned) (g'.report d) rest hrest).1
      cases found with
      | none => exact (hloud _ hnil).elim
      | some s =>
        rw [hwiden s rfl]
        dsimp only at hnil ⊢
        split at hnil
        · next howner =>
          rw [if_pos howner, if_pos howner, ih (name :: mentioned) hrest hnil]
        · exact (hloud _ hnil).elim

theorem widen_closure (owner : String) (mentioned : List String) (g : Gathering) (queue : List Document)
    (hq : ∀ d ∈ queue, g.store.Loaded d) (hnil : (closure files owner mentioned g queue).2.problems = []) :
    closure files owner mentioned (g.widen more) queue
      = (closure files owner mentioned g queue).map id (widen more) := by
  fun_induction closure files owner mentioned g queue with
  | case1 =>
    rw [closure]
    rfl
  | case2 mentioned g document rest r later g' heq ih =>
    rw [List.forall_mem_cons] at hq
    have hw : ∀ name ∈ document.body.includes, g.store.Wanted name :=
      fun name hname => ⟨document, hq.1, .inl hname⟩
    obtain ⟨hsteps, hparts⟩ := steps_mention files owner document mentioned hw
    have hqueue : ∀ d ∈ rest ++ r.1, r.2.2.store.Loaded d := by
      intro d hd
      rcases List.mem_append.1 hd with hd | hd
      · exact hsteps.extends.loaded (hq.2 d hd)
      · exact hparts d hd
    have hmore := (steps_closure files owner r.2.1 r.2.2 (rest ++ r.1) hqueue).1
    rw [heq] at hmore ih
    have hmention := @widen_mention files more g owner document mentioned _ hw (hmore.problems_eq_nil hnil)
    rw [closure, hmention]
    dsimp only
    rw [ih hqueue hnil]
    rfl

theorem widen_bindImports (known : List String) (context : Context) {imports : List Import}
    (hw : ∀ i ∈ imports, g.store.Wanted i.moduleName)
    (hnil : (bindImports files known context g imports).2.2.problems = []) :
    bindImports files known context (g.widen more) imports
      = (let r := bindImports files known context g imports
        (r.1, r.2.1, r.2.2.widen more)) := by
  induction imports generalizing context g with
  | nil => rfl
  | cons i rest ih =>
    rw [List.forall_mem_cons] at hw
    have hloud : ∀ {g : Gathering} d, (∀ i ∈ rest, g.store.Wanted i.moduleName) →
        (bindImports files known context (g.report d) rest).2.2.problems ≠ [] :=
      fun {g} d hrest => report_ne_nil (@steps_bindImports files known context (g.report d) rest hrest)
    unfold bindImports at hnil ⊢
    split at hnil
    · exact (hloud _ hw.2 hnil).elim
    · next hown =>
      rw [if_neg hown, if_neg hown]
      split at hnil
      · exact (hloud _ hw.2 hnil).elim
      · next hfree =>
        rw [if_neg hfree, if_neg hfree]
        have hlook : Steps files g (g.look Store.findModule files i.moduleName).2 := .single (.look _ g hw.1)
        have hwiden : ∀ m, (g.look Store.findModule files i.moduleName).1 = some m →
            (g.widen more).look Store.findModule files i.moduleName
              = (some m, (g.look Store.findModule files i.moduleName).2.widen more) :=
          fun m => widen_look fun _ _ => rfl
        generalize g.look Store.findModule files i.moduleName = looked at hlook hwiden hnil ⊢
        obtain ⟨found, g'⟩ := looked
        have hrest : ∀ other ∈ rest, g'.store.Wanted other.moduleName :=
          fun other hother => hlook.extends.wanted (hw.2 other hother)
        cases found with
        | none => exact (hloud _ hrest hnil).elim
        | some m =>
          rw [hwiden m rfl]
          dsimp only at hnil ⊢
          rw [ih _ hrest hnil]

theorem widen_enterAll {α : Type} [Defined α] (context : Context) (table : Table α) (g : Gathering) (l : List α) :
    enterAll α context table (g.widen more) l = (enterAll α context table g l).map id (widen more) := by
  induction l generalizing table g with
  | nil => rfl
  | cons definition rest ih =>
    unfold enterAll
    dsimp only
    split
    · exact ih _ (g.report _)
    · exact ih _ g

theorem widen_contextualise (known : List String) (owner : String)
    (typedefs : Table Typedef) (groupings : Table Grouping)
    {documents : List Document} (hd : ∀ d ∈ documents, g.store.Loaded d)
    (hnil : (contextualise files known owner typedefs groupings g documents).2.2.problems = []) :
    contextualise files known owner typedefs groupings (g.widen more) documents
      = (let r := contextualise files known owner typedefs groupings g documents
        (r.1, r.2.1, r.2.2.widen more)) := by
  induction documents generalizing typedefs groupings g with
  | nil => rfl
  | cons document rest ih =>
    rw [List.forall_mem_cons] at hd
    have hw : ∀ i ∈ document.body.imports, g.store.Wanted i.moduleName :=
      fun i hi => ⟨document, hd.1, .inr ⟨i, hi, rfl⟩⟩
    unfold contextualise at hnil ⊢
    dsimp only at hnil ⊢
    have hbound := steps_bindImports files known (.first owner document) hw
    have hwiden := @widen_bindImports files more g known (.first owner document) _ hw
    generalize bindImports files known (.first owner document) g document.body.imports = bound
      at hbound hwiden hnil ⊢
    obtain ⟨context, needed, g₁⟩ := bound
    dsimp only at hbound hwiden hnil ⊢
    have htypedefs := steps_enterAll files Typedef context typedefs g₁ document.body.typedefs
    have hwiden₁ := @widen_enterAll more Typedef _ context typedefs g₁ document.body.typedefs
    generalize enterAll Typedef context typedefs g₁ document.body.typedefs = checked at htypedefs hwiden₁ hnil ⊢
    obtain ⟨typedefs', g₂⟩ := checked
    dsimp only at htypedefs hnil ⊢
    have hgroupings := steps_enterAll files Grouping context groupings g₂ document.body.groupings
    have hwiden₂ := @widen_enterAll more Grouping _ context groupings g₂ document.body.groupings
    generalize enterAll Grouping context groupings g₂ document.body.groupings = checked at hgroupings hwiden₂ hnil ⊢
    obtain ⟨groupings', g₃⟩ := checked
    dsimp only at hgroupings hnil ⊢
    have hchecked : Steps files g₁ g₃ := htypedefs.trans hgroupings
    have hsteps : Steps files g g₃ := hbound.trans hchecked
    have hloaded : ∀ d ∈ rest, g₃.store.Loaded d := fun d hmem => hsteps.extends.loaded (hd.2 d hmem)
    have hrest : Steps files g₁ _ :=
      hchecked.trans (steps_contextualise files known owner typedefs' groupings' hloaded)
    -- there was no problem when the imports were bound
    rw [hwiden (hrest.problems_eq_nil hnil)]
    dsimp only
    rw [hwiden₁]
    dsimp only [Prod.map, id]
    rw [hwiden₂]
    dsimp only [Prod.map, id]
    rw [ih typedefs' groupings' hloaded hnil]

theorem widen_note (more : List Path) (g : Gathering) (n : Note) : (g.widen more).note n = (g.note n).widen more := by
  unfold note
  rw [show (g.widen more).breakdown = g.breakdown from rfl]
  split
  · rfl
  · rfl

theorem widen_scope (known : List String) {main : Module} (hm : main ∈ g.store.modules)
    (hnil : (scope files known main g).2.2.problems = []) :
    scope files known main (g.widen more)
      = (let r := scope files known main g
        (r.1, r.2.1, r.2.2.widen more)) := by
  unfold scope at hnil ⊢
  dsimp only at hnil ⊢
  obtain ⟨hsteps, hloaded⟩ := steps_closure_main files hm
  have hq : ∀ d ∈ [Document.main main], g.store.Loaded d := by
    rw [List.forall_mem_singleton]
    exact hm
  have hwiden := @widen_closure files more main.name [] g [.main main] hq
  generalize closure files main.name [] g [.main main] = closed at hsteps hloaded hwiden hnil ⊢
  obtain ⟨documents, g₁⟩ := closed
  dsimp only at hsteps hloaded hwiden hnil ⊢
  have hrest := steps_contextualise files known main.name [] [] hloaded
  have hnote : Steps files _ _ := .single (.note (contextualise files known main.name [] [] g₁ documents).2.2
    main.name documents.length)
  have hnil' := hnote.problems_eq_nil hnil
  rw [hwiden (hrest.problems_eq_nil hnil')]
  dsimp only [Prod.map, id]
  rw [widen_contextualise known main.name [] [] hloaded hnil']
  dsimp only
  rw [widen_note]

theorem widen_nextNeeded (more : List Path) (store : Store) (scopes : Scopes) (needed : List String) :
    nextNeeded (store.widen more) scopes needed = nextNeeded store scopes needed := by
  induction needed with
  | nil => rfl
  | cons name rest ih =>
    unfold nextNeeded
    rw [ih]
    rfl

theorem widen_next (more : List Path) (store : Store) (scopes : Scopes) (needed : List String) :
    next (store.widen more) scopes needed = next store scopes needed := by
  unfold next
  rw [widen_nextNeeded, widen_nextNeeded]
  rfl

theorem Runs.widen {scopes final : Scopes} {needed : List String} {g' : Gathering}
    (h : Runs files scopes needed g final g') (hnil : g'.problems = []) :
    Runs files scopes needed (g.widen more) final (g'.widen more) := by
  induction h with
  | done hnext =>
    apply Runs.done
    rw [← hnext]
    apply widen_next
  | @scope scopes final needed rest main g g' hnext hmore ih =>
    have hscope := @widen_scope files more g (scopedNames scopes) main (next_spec hnext).1
      (hmore.steps.problems_eq_nil hnil)
    apply Runs.scope
    · rw [← hnext]
      apply widen_next
    · rw [hscope]
      exact ih hnil

end Gathering

end Yang

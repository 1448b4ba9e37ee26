import Yang.Proofs.Gather.Step
import Yang.Proofs.Scope.Coherent
import Yang.Proofs.Store.TopLevel

/-!
This module contains what holds of gathered scopes: every scope is the scope of the first record of its name, the
modules that prefixes stand for are loaded, and when the gathering ends every loaded module has a scope.
-/

namespace Yang.Gathering

variable {files : Files}

theorem get_of_steps {g g' : Gathering} (h : Steps files g g') {name : String}
    (hs : (g.store.module? name).isSome = true) : (g'.store.module? name).isSome = true := by
  obtain ⟨m, hm⟩ := Option.isSome_iff_exists.1 hs
  rw [h.extends.module? hm]
  rfl

theorem bindImports_spec (files : Files) (known : List String) (context : Context) {g : Gathering}
    {imports : List Import} (hw : ∀ i ∈ imports, g.store.Wanted i.moduleName) :
    let r := bindImports files known context g imports
    r.1.document = context.document ∧ r.1.owner = context.owner
      ∧ ∀ p ∈ r.1.prefixes, p ∈ context.prefixes ∨ (r.2.2.store.module? p.2).isSome = true := by
  induction imports generalizing context g with
  | nil => exact ⟨rfl, rfl, fun p hp => .inl hp⟩
  | cons i rest ih =>
    rw [List.forall_mem_cons] at hw
    unfold bindImports
    split
    · exact @ih _ (g.report _) hw.2
    · split
      · exact @ih _ (g.report _) hw.2
      · have hlook : Steps files g (g.look Store.findModule files i.moduleName).2 := .single (.look _ g hw.1)
        have hget := @module?_of_look files i.moduleName g
        generalize g.look Store.findModule files i.moduleName = looked at hlook hget
        obtain ⟨found, g'⟩ := looked
        dsimp only at hlook hget ⊢
        have hrest : ∀ other ∈ rest, g'.store.Wanted other.moduleName :=
          fun other hother => hlook.extends.wanted (hw.2 other hother)
        cases found with
        | none => exact @ih _ (g'.report _) hrest
        | some m =>
          dsimp only
          have hsteps := steps_bindImports files known
            { context with prefixes := context.prefixes ++ [(i.prefixId, i.moduleName)] } hrest
          obtain ⟨hdocument, howner, hprefixes⟩ :=
            ih { context with prefixes := context.prefixes ++ [(i.prefixId, i.moduleName)] } hrest
          refine ⟨hdocument, howner, fun p hp => ?_⟩
          rcases hprefixes p hp with hp | hp
          · rcases List.mem_append.1 hp with hp | hp
            · exact .inl hp
            · right
              rw [List.mem_singleton.1 hp]
              apply get_of_steps hsteps
              rw [hget rfl]
              rfl
          · exact .inr hp

theorem contextualise_spec (files : Files) (known : List String) (owner : String)
    (typedefs : Table Typedef) (groupings : Table Grouping)
    {g : Gathering} {documents : List Document} (hd : ∀ d ∈ documents, g.store.Loaded d) :
    let r := contextualise files known owner typedefs groupings g documents
    r.1.map Context.document = documents
      ∧ ∀ context ∈ r.1, context.owner = owner
        ∧ ∀ p ∈ context.prefixes, p.2 = owner ∨ (r.2.2.store.module? p.2).isSome = true := by
  induction documents generalizing typedefs groupings g with
  | nil => exact ⟨rfl, fun context hc => nomatch hc⟩
  | cons document rest ih =>
    rw [List.forall_mem_cons] at hd
    have hw : ∀ i ∈ document.body.imports, g.store.Wanted i.moduleName :=
      fun i hi => ⟨document, hd.1, .inr ⟨i, hi, rfl⟩⟩
    unfold contextualise
    dsimp only
    have himports := steps_bindImports files known (.first owner document) hw
    have hbound := bindImports_spec files known (.first owner document) hw
    generalize bindImports files known (.first owner document) g document.body.imports = bound at himports hbound ⊢
    obtain ⟨context, needed, g₁⟩ := bound
    have htypedefs := steps_enterAll files Typedef context typedefs g₁ document.body.typedefs
    dsimp only at himports hbound htypedefs ⊢
    generalize enterAll Typedef context typedefs g₁ document.body.typedefs = checked at htypedefs ⊢
    obtain ⟨typedefs', g₂⟩ := checked
    have hgroupings := steps_enterAll files Grouping context groupings g₂ document.body.groupings
    dsimp only at htypedefs hgroupings ⊢
    generalize enterAll Grouping context groupings g₂ document.body.groupings = checked at hgroupings ⊢
    obtain ⟨groupings', g₃⟩ := checked
    dsimp only at hgroupings ⊢
    have hchecked : Steps files g₁ g₃ := htypedefs.trans hgroupings
    have hloaded : ∀ d ∈ rest, g₃.store.Loaded d :=
      fun d hmem => hchecked.extends.loaded (Steps.extends himports |>.loaded (hd.2 d hmem))
    have hrest := steps_contextualise files known owner typedefs' groupings' hloaded
    obtain ⟨hdocuments, hcontexts⟩ := ih typedefs' groupings' hloaded
    obtain ⟨hdocument, howner, hprefixes⟩ := hbound
    constructor
    · rw [List.map_cons, hdocuments, hdocument]
      rfl
    · intro c hc
      rcases List.mem_cons.1 hc with rfl | hc
      · refine ⟨howner, fun p hp => ?_⟩
        rcases hprefixes p hp with hp | hp
        · exact .inl (by rw [List.mem_singleton.1 hp])
        · exact .inr (get_of_steps (hchecked.trans hrest) hp)
      · exact hcontexts c hc

theorem closure_main (files : Files) (owner : String) (mentioned : List String) (g : Gathering) (document : Document)
    (rest : List Document) :
    ∃ more, (closure files owner mentioned g (document :: rest)).1 = document :: more := by
  rw [closure]
  exact ⟨_, rfl⟩

theorem closure_alone {main : Module} (h : main.body.includes = []) (g : Gathering) :
    closure files main.name [] g [.main main] = ([.main main], g) := by
  rw [closure, closure.eq_def]
  rw [show (Document.main main).body.includes = [] from h]
  rfl

theorem scope_spec (files : Files) (known : List String) {main : Module} {g : Gathering}
    (hm : main ∈ g.store.modules) :
    let r := scope files known main g
    (∃ more, r.1.contexts.map Context.document = .main main :: more)
      ∧ ∀ context ∈ r.1.contexts, context.owner = main.name
        ∧ ∀ p ∈ context.prefixes, p.2 = main.name ∨ (r.2.2.store.module? p.2).isSome = true := by
  unfold scope
  dsimp only
  obtain ⟨_, hloaded⟩ := steps_closure_main files hm
  obtain ⟨more, hmore⟩ := closure_main files main.name [] g (.main main) []
  generalize closure files main.name [] g [.main main] = closed at hmore hloaded ⊢
  obtain ⟨documents, g₁⟩ := closed
  dsimp only at hmore hloaded ⊢
  obtain ⟨hdocuments, hcontexts⟩ := contextualise_spec files known main.name [] [] hloaded
  refine ⟨⟨more, by rw [hdocuments, hmore]⟩, fun context hc => ?_⟩
  obtain ⟨howner, hprefixes⟩ := hcontexts context hc
  refine ⟨howner, fun p hp => ?_⟩
  rcases hprefixes p hp with hp | hp
  · exact .inl hp
  · exact .inr (get_of_steps (.single (.note _ _ _) : Steps files _ _) hp)

structure Sound (store : Store) (scopes : Scopes) : Prop where
  coherent : scopes.Coherent
  first : ∀ scope ∈ scopes, store.module? scope.main.name = some scope.main
  own : ∀ scope ∈ scopes, ∃ more, scope.contexts.map Context.document = .main scope.main :: more
  bound : ∀ scope ∈ scopes, ∀ context ∈ scope.contexts, ∀ p ∈ context.prefixes,
    (store.module? p.2).isSome = true

theorem Sound.nil (store : Store) : Sound store [] where
  coherent := ⟨List.nodup_nil, fun _ h => nomatch h⟩
  first := fun _ h => nomatch h
  own := fun _ h => nomatch h
  bound := fun _ h => nomatch h

theorem nextNeeded_first {store : Store} {scopes : Scopes} {needed rest : List String} {main : Module}
    (h : nextNeeded store scopes needed = some (main, rest)) : store.module? main.name = some main := by
  induction needed with
  | nil => cases h
  | cons name more ih =>
    unfold nextNeeded at h
    split at h
    · next m hm =>
      split at h
      · exact ih h
      · cases h
        rw [(Store.module?_spec hm).2]
        exact hm
    · exact ih h

theorem next_first {store : Store} {scopes : Scopes} {needed rest : List String} {main : Module}
    (h : next store scopes needed = some (main, rest)) : store.module? main.name = some main := by
  unfold next at h
  rcases Option.or_eq_some_iff.1 h with h | ⟨_, h⟩
  · exact nextNeeded_first h
  · exact nextNeeded_first h

theorem Sound.extend {store store' : Store} {scopes : Scopes} {scope : Scope} (h : Sound store scopes)
    (hext : store.Extends store') (hnew : (scopedNames scopes).contains scope.main.name = false)
    (hfirst : store.module? scope.main.name = some scope.main)
    (hown : ∃ more, scope.contexts.map Context.document = .main scope.main :: more)
    (hcontexts : ∀ context ∈ scope.contexts, context.owner = scope.main.name
      ∧ ∀ p ∈ context.prefixes, p.2 = scope.main.name ∨ (store'.module? p.2).isSome = true) :
    Sound store' (scopes ++ [scope]) where
  coherent := by
    constructor
    · rw [List.map_append, List.nodup_append]
      refine ⟨h.coherent.distinct, by simp, fun name hname other hother heq => ?_⟩
      rw [List.map_singleton, List.mem_singleton] at hother
      rw [heq, hother] at hname
      rw [List.contains_eq_mem, decide_eq_false_iff_not] at hnew
      exact hnew hname
    · intro s hs context hc
      rcases List.mem_append.1 hs with hs | hs
      · exact h.coherent.owner s hs context hc
      · rw [List.mem_singleton.1 hs] at hc ⊢
        exact (hcontexts context hc).1
  first := by
    intro s hs
    rcases List.mem_append.1 hs with hs | hs
    · exact hext.module? (h.first s hs)
    · rw [List.mem_singleton.1 hs]
      exact hext.module? hfirst
  own := by
    intro s hs
    rcases List.mem_append.1 hs with hs | hs
    · exact h.own s hs
    · rw [List.mem_singleton.1 hs]
      exact hown
  bound := by
    intro s hs context hc p hp
    rcases List.mem_append.1 hs with hs | hs
    · obtain ⟨m, hm⟩ := Option.isSome_iff_exists.1 (h.bound s hs context hc p hp)
      rw [hext.module? hm]
      rfl
    · rw [List.mem_singleton.1 hs] at hc
      rcases (hcontexts context hc).2 p hp with heq | hsome
      · rw [heq, hext.module? hfirst]
        rfl
      · exact hsome

theorem Runs.sound {scopes final : Scopes} {needed : List String} {g g' : Gathering}
    (h : Runs files scopes needed g final g') (hs : Sound g.store scopes) : Sound g'.store final := by
  induction h with
  | done => exact hs
  | @scope scopes final needed rest main g g' hnext _ ih =>
    apply ih
    have hmain := (next_spec hnext).1
    obtain ⟨hown, hcontexts⟩ := scope_spec files (scopedNames scopes) hmain
    apply hs.extend (steps_scope files (scopedNames scopes) hmain).extends
    · exact (next_spec hnext).2
    · exact next_first hnext
    · exact hown
    · exact hcontexts

theorem contains_of_nextNeeded_eq_none {store : Store} {scopes : Scopes} {needed : List String}
    (h : nextNeeded store scopes needed = none) {name : String} (hname : name ∈ needed) {m : Module}
    (hm : store.module? name = some m) : name ∈ scopedNames scopes := by
  induction needed with
  | nil => cases hname
  | cons first rest ih =>
    unfold nextNeeded at h
    rcases List.mem_cons.1 hname with rfl | hname
    · rw [hm] at h
      dsimp only at h
      split at h
      · next hin =>
        rw [(Store.module?_spec hm).2, List.contains_eq_mem, decide_eq_true_eq] at hin
        exact hin
      · cases h
    · split at h
      · split at h
        · exact ih h hname
        · cases h
      · exact ih h hname

theorem Runs.complete {scopes final : Scopes} {needed : List String} {g g' : Gathering}
    (h : Runs files scopes needed g final g') {name : String}
    (hname : (g'.store.module? name).isSome = true) : name ∈ scopedNames final := by
  induction h with
  | @done scopes needed g hnext =>
    obtain ⟨m, hm⟩ := Option.isSome_iff_exists.1 hname
    unfold next at hnext
    rw [Option.or_eq_none_iff] at hnext
    -- a gathering also asks for the modules that came along with others before it ends
    apply contains_of_nextNeeded_eq_none hnext.2 (Store.mem_names_topLevel_iff.2 hname) hm
  | scope _ _ ih => exact ih hname

end Yang.Gathering

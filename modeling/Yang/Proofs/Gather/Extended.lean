import Yang.Proofs.Gather.Joined
import Yang.Proofs.Gather.Names

/-!
This module contains gatherings with one further module that nothing else imports, and that imports only modules that are
loaded already. Its scope comes in between the others, and for the sake of it nothing is loaded and no other scope comes
sooner or later.
-/

namespace Yang

def Foreign.named (name : String) : Foreign where
  modules := fun other => other == name
  submodules := fun _ => false
  sites := fun _ => false

theorem Foreign.named_modules_eq_false_iff {name other : String} :
    (Foreign.named name).modules other = false ↔ other ≠ name :=
  beq_eq_false_iff_ne

/--
Whether a module is a further one: it includes nothing, imports only modules that a store has, no other module in the
end has its name or its namespace, and no other document in the end imports it.
-/
structure Module.Further (b : Module) (store final : Store) : Prop where
  new : store.module? b.name = none
  includes : b.body.includes = []
  imports : ∀ i ∈ b.body.imports, (store.module? i.moduleName).isSome = true
  only : final.modules.filter (fun m => m.name == b.name) = [b]
  unwanted : ∀ d, final.Loaded d → d ≠ .main b → ∀ i ∈ d.body.imports, i.moduleName ≠ b.name
  uri : ∀ m ∈ final.modules, m.name ≠ b.name → m.uri ≠ b.uri

namespace Gathering

variable {files : Files} {g final : Gathering} {b : Module} {store : Store} {p q : Stage} {scopes : Scopes}
  {main : Module} {rest : List String}

theorem store_look_of_isSome {name : String} (h : (g.store.module? name).isSome = true) :
    (g.look Store.findModule files name).2 = g := by
  obtain ⟨m, hm⟩ := Option.isSome_iff_exists.1 h
  unfold look Store.findModule Store.find
  rw [hm]
  dsimp only
  split
  · rfl
  · rfl

theorem store_bindImports (known : List String) (context : Context) {imports : List Import}
    (h : ∀ i ∈ imports, (g.store.module? i.moduleName).isSome = true) :
    (bindImports files known context g imports).2.2.store = g.store := by
  induction imports generalizing context g with
  | nil => rfl
  | cons i rest ih =>
    rw [List.forall_mem_cons] at h
    unfold bindImports
    split
    · exact @ih (g.report _) _ h.2
    · split
      · exact @ih (g.report _) _ h.2
      · have hlook := @store_look_of_isSome files g i.moduleName h.1
        generalize g.look Store.findModule files i.moduleName = looked at hlook ⊢
        obtain ⟨found, g'⟩ := looked
        dsimp only at hlook ⊢
        subst hlook
        cases found with
        | none => exact @ih (g'.report _) _ h.2
        | some m => exact ih _ h.2

theorem store_scope_of_loaded (known : List String) (hincludes : b.body.includes = [])
    (himports : ∀ i ∈ b.body.imports, (g.store.module? i.moduleName).isSome = true) :
    ∃ n, (scope files known b g).2.2.store = g.store ∨ (scope files known b g).2.2.store = g.store.note n := by
  unfold scope
  rw [closure_alone hincludes]
  dsimp only
  have hstore : (contextualise files known b.name [] [] g [.main b]).2.2.store = g.store := by
    unfold contextualise contextualise
    dsimp only
    rw [store_enterAll, store_enterAll]
    exact store_bindImports _ _ himports
  refine ⟨.collected b.name [Document.main b].length, ?_⟩
  unfold Gathering.note
  split
  · exact .inl hstore
  · right
    dsimp only
    rw [hstore]

theorem minds_named (hrunning : final.breakdown = none)
    (hunwanted : ∀ d, final.store.Loaded d → d ≠ .main b → ∀ i ∈ d.body.imports, i.moduleName ≠ b.name) :
    Minds (.named b.name) final where
  ignores := by
    intro d hd hhome
    refine ⟨fun _ _ => rfl, fun i hi => Foreign.named_modules_eq_false_iff.2 (hunwanted d hd ?_ i hi)⟩
    rintro rfl
    exact Foreign.named_modules_eq_false_iff.1 hhome rfl
  sites := fun _ _ => rfl
  breakdown := hrunning

theorem passed_of_next (hfound : ∀ name ∈ q.needed, (q.store.module? name).isSome = true)
    (hnext : q.next = some (main, rest)) {name : String} (hname : name ∈ q.done ∨ name ∈ q.needed) :
    name ∈ q.done ∨ name = main.name ∨ name ∈ rest := by
  rcases hname with hname | hname
  · exact .inl hname
  · by_cases hempty : fresh (scopedNames q.scopes) q.needed = []
    · exact .inl (fresh_eq_nil_iff.1 hempty name hname)
    · have hpassed := (taken_of_next hfound hnext).passed name
      rw [fresh_batch_of_ne_nil hempty] at hpassed
      exact hpassed hname

theorem scope_of_alone (known : List String) (hincludes : b.body.includes = []) (hb : b ∈ g.store.modules) :
    ∀ c ∈ (scope files known b g).1.contexts, c.document = .main b := by
  unfold scope
  rw [closure_alone hincludes]
  dsimp only
  have hloaded : ∀ d ∈ [Document.main b], g.store.Loaded d := List.forall_mem_singleton.2 hb
  obtain ⟨hdocuments, _⟩ := contextualise_spec files known b.name [] [] hloaded
  intro c hc
  have hc := List.mem_map_of_mem (f := Context.document) hc
  rw [hdocuments] at hc
  exact List.mem_singleton.1 hc

structure Extending (b : Module) (p q : Stage) : Prop where
  alongside : Alongside (.named b.name) p q
  running : p.gathering.breakdown = none
  silent : p.gathering.problems = []
  scopes : p.scopes = q.scopes.filter (fun scope => scope.main.name != b.name)
  further : q.store.module? b.name = some b
  -- what the further module imports waits already, so that it does not come any sooner for the sake of that module
  imports : ∀ i ∈ b.body.imports, (q.store.module? i.moduleName).isSome = true
    ∧ (i.moduleName ∈ q.done ∨ i.moduleName ∈ q.needed)

namespace Extending

theorem imports_after (h : Extending b p q) (hnext : q.next = some (main, rest)) :
    ∀ i ∈ b.body.imports, ((q.after files main rest).store.module? i.moduleName).isSome = true
      ∧ (i.moduleName ∈ (q.after files main rest).done ∨ i.moduleName ∈ (q.after files main rest).needed) := by
  intro i hi
  obtain ⟨hsome, hin⟩ := h.imports i hi
  refine ⟨get_of_steps (steps_scope files q.done (next_spec hnext).1) hsome, ?_⟩
  rw [Stage.done_after, List.mem_append, List.mem_singleton]
  rcases passed_of_next h.alongside.found' hnext hin with hin | hin | hin
  · exact .inl (.inl hin)
  · exact .inl (.inr hin)
  · exact .inr (List.mem_append_left _ hin)

theorem home (h : Extending b p q) (hends : q.Ends files scopes final) (hminds : Minds (.named b.name) final)
    (hnil : final.problems = []) (honly : final.store.modules.filter (fun m => m.name == b.name) = [b])
    (hnext : q.next = some (main, rest)) (hmain : main.name ≠ b.name) :
    ∃ rest', p.next = some (main, rest') ∧ Extending b (p.after files main rest') (q.after files main rest) := by
  have hhome : (Foreign.named b.name).modules main.name = false := Foreign.named_modules_eq_false_iff.2 hmain
  obtain ⟨rest', hnext', _⟩ := h.alongside.next_eq_some hnext hhome
  refine ⟨rest', hnext', ?_⟩
  have hmore := (hends.after hnext).steps
  have hin := (next_spec hnext).1
  have hbeside : Beside (.named b.name) q.gathering p.gathering :=
    ⟨h.alongside.alike.symm, (Steps.minds hends.steps hminds).breakdown, h.running⟩
  obtain ⟨⟨e, hgains', hgains⟩, hscope, hneeded⟩ := beside_scope hbeside
    (fun name hname => (h.alongside.known name hname).symm) hin hhome (Steps.minds hmore hminds)
  -- no other document of the run has the name of the further module, so none was loaded now
  have hnone : (e.documents.filterMap Document.main?).filter (fun m => m.name == b.name) = [] := by
    have hprefix : (q.gathering.store.modules ++ e.documents.filterMap Document.main?) <+: final.store.modules := by
      rw [← hgains'.store.modules]
      exact (Steps.extends hmore).modules
    have hfiltered := hprefix.filter (fun m => m.name == b.name)
    rw [honly, List.filter_append] at hfiltered
    have hb : b ∈ q.gathering.store.modules.filter (fun m => m.name == b.name) :=
      List.mem_filter.2 ⟨(Store.module?_spec h.further).1, beq_self_eq_true _⟩
    have hlength := hfiltered.length_le
    rw [List.length_append, List.length_singleton] at hlength
    have hpos := List.length_pos_of_mem hb
    exact List.eq_nil_of_length_eq_zero (by omega)
  have hown : ∀ name, (Foreign.named b.name).modules name = true →
      (p.after files main rest').store.module? name = none := by
    intro name hname
    have hnew := h.alongside.own name hname
    apply (hgains.store.module? name).trans
    unfold Stage.store at hnew
    rw [hnew, Option.none_or, show name = b.name from beq_iff_eq.1 hname, ← List.head?_filter, hnone]
    rfl
  constructor
  · exact h.alongside.after hnext' hnext hhome hgains hgains' hneeded.symm hown
  · exact hgains.breakdown
  · have hsilent := hgains'.problems.symm.trans (Steps.problems_eq_nil hmore hnil)
    apply hgains.problems.trans
    rw [h.silent, (List.append_eq_nil_iff.1 hsilent).2]
    rfl
  · unfold Stage.after
    dsimp only
    rw [List.filter_append, ← h.scopes]
    congr 1
    rw [List.filter_singleton, main_scope, bne_iff_ne.2 hmain, cond_true]
    exact congrArg (fun scope => [scope]) hscope
  · exact (Steps.extends (steps_scope files q.done hin)).module? h.further
  · exact h.imports_after hnext

theorem away (h : Extending b p q) (hincludes : b.body.includes = []) (hnext : q.next = some (main, rest))
    (hmain : main.name = b.name) : Extending b p (q.after files main rest) := by
  have hfirst := next_first hnext
  rw [hmain, h.further] at hfirst
  cases hfirst
  have hforeign : (Foreign.named b.name).modules b.name = true := beq_self_eq_true _
  have hin := (next_spec hnext).1
  obtain ⟨n, hstore⟩ := @store_scope_of_loaded files q.gathering b q.done hincludes fun i hi => (h.imports i hi).1
  constructor
  · apply h.alongside.stay hnext hforeign
    · have halike := h.alongside.alike
      unfold Stage.after
      dsimp only
      rcases hstore with hstore | hstore
      · unfold Stage.store at halike ⊢
        rw [hstore]
        exact halike
      · unfold Stage.store at halike ⊢
        rw [hstore]
        exact halike.apart (.note _ n) nofun nofun
    · intro name hname hhome
      obtain ⟨⟨c, hc, i, hi, rfl⟩, _⟩ := needed_scope q.done hin name hname
      rw [scope_of_alone q.done hincludes hin c hc] at hi
      rcases passed_of_next h.alongside.found' hnext (h.imports i hi).2 with hin | hin | hin
      · exact .inl hin
      · exact absurd hin (Foreign.named_modules_eq_false_iff.1 hhome)
      · exact .inr hin
  · exact h.running
  · exact h.silent
  · unfold Stage.after
    dsimp only
    rw [List.filter_append, ← h.scopes, List.filter_singleton, main_scope, bne_self_eq_false, cond_false,
      List.append_nil]
  · exact (Steps.extends (steps_scope files q.done hin)).module? h.further
  · exact h.imports_after hnext

theorem ends (hq : q.Ends files scopes final) (h : Extending b p q) (hminds : Minds (.named b.name) final)
    (hnil : final.problems = []) (honly : final.store.modules.filter (fun m => m.name == b.name) = [b])
    (hincludes : b.body.includes = []) {scopes' : Scopes} (hp : p.Ends files scopes' g) :
    g.breakdown = none ∧ g.problems = [] ∧ scopes' = scopes.filter (fun scope => scope.main.name != b.name) := by
  unfold Stage.Ends at hq
  obtain ⟨scopes₀, needed₀, g₀⟩ := q
  dsimp only at hq
  induction hq generalizing p with
  | done hnone =>
    obtain ⟨rfl, rfl⟩ := hp.eq (h.alongside.next_eq_none hnone)
    exact ⟨h.running, h.silent, h.scopes⟩
  | @scope scopes₀ final needed₀ rest main g₀ g' hnext more ih =>
    by_cases hmain : main.name = b.name
    · exact ih hminds hnil honly hp (h.away hincludes hnext hmain)
    · obtain ⟨rest', hnext', hafter⟩ := h.home (.scope hnext more) hminds hnil honly hnext hmain
      exact ih hminds hnil honly (hp.after hnext') hafter

end Extending

theorem module?_single (b : Module) (searchPath : List Path) (name : String) :
    ((Store.empty searchPath).add (.main b)).module? name = if b.name == name then some b else none := by
  unfold Store.module?
  rw [show ((Store.empty searchPath).add (.main b)).modules = [b] from rfl, List.find?_singleton]

theorem all_extended {s u : Store} (h : s.Joins ((Store.empty s.searchPath).add (.main b)) u)
    (hb : b.Further s (all files [] [] ⟨u, [], none⟩).2.store)
    (hrunning : (all files [] [] ⟨u, [], none⟩).2.breakdown = none)
    (hnil : (all files [] [] ⟨u, [], none⟩).2.problems = []) :
    (all files [] [] ⟨s, [], none⟩).2.breakdown = none ∧ (all files [] [] ⟨s, [], none⟩).2.problems = []
      ∧ (all files [] [] ⟨s, [], none⟩).1
        = (all files [] [] ⟨u, [], none⟩).1.filter (fun scope => scope.main.name != b.name) := by
  have hown : ∀ name, (Foreign.named b.name).modules name = true → s.module? name = none := by
    intro name hname
    rw [show name = b.name from beq_iff_eq.1 hname]
    exact hb.new
  have halike : s.Matches (.named b.name) u := by
    constructor
    · exact h.searchPath.symm
    · intro name hname
      rw [h.modules, module?_single, if_neg, Option.or_none]
      rw [beq_iff_eq]
      exact (Foreign.named_modules_eq_false_iff.1 hname).symm
    · intro name _
      rw [h.submodules]
      exact (Option.or_none).symm
    · intro site _
      rw [h.searched, or_iff_left]
      exact List.not_mem_nil
  have hextending : Extending b (.begin s) (.begin u) := by
    refine ⟨.begin halike hown, rfl, rfl, rfl, ?_, ?_⟩
    · refine (h.modules b.name).trans ?_
      rw [hb.new, module?_single, if_pos (beq_self_eq_true _), Option.none_or]
    · intro i hi
      have hsome : (u.module? i.moduleName).isSome = true := by
        rw [h.modules, Option.isSome_or, hb.imports i hi, Bool.true_or]
      exact ⟨hsome, .inr (Store.mem_names_topLevel_iff.2 hsome)⟩
  exact hextending.ends (Stage.ends_begin files u) (minds_named hrunning hb.unwanted) hnil hb.only hb.includes
    (Stage.ends_begin files s)

end Gathering

end Yang

import Yang.Proofs.Gather.Step
import Yang.Proofs.Store.Alike

/-!
This module contains the simulation of one gathering by another: when the stores look alike in the beginning, both
gather alike scopes, turn to the modules in the same order, and find the same problems.
-/

namespace Yang

structure Same {α : Type} (exact : Prop) (a b : List α) : Prop where
  nil : a = [] ↔ b = []
  eq : exact → a = b

namespace Same

variable {α β : Type} {exact : Prop} {a b c d : List α}

theorem refl (exact : Prop) (a : List α) : Same exact a a :=
  ⟨Iff.rfl, fun _ => rfl⟩

theorem append (h : Same exact a b) (h' : Same exact c d) : Same exact (a ++ c) (b ++ d) where
  nil := by rw [List.append_eq_nil_iff, List.append_eq_nil_iff, h.nil, h'.nil]
  eq := fun he => by rw [h.eq he, h'.eq he]

theorem map (h : Same exact a b) (f : α → β) : Same exact (a.map f) (b.map f) where
  nil := by rw [List.map_eq_nil_iff, List.map_eq_nil_iff, h.nil]
  eq := fun he => by rw [h.eq he]

end Same

def repeated (taken : List String) : List String → List String
  | [] => []
  | name :: rest => if taken.contains name then name :: repeated taken rest else repeated (name :: taken) rest

theorem repeated_congr {taken taken' : List String} (h : ∀ name, name ∈ taken ↔ name ∈ taken')
    (names : List String) : repeated taken names = repeated taken' names := by
  induction names generalizing taken taken' with
  | nil => rfl
  | cons name rest ih =>
    unfold repeated
    have hcontains : taken.contains name = taken'.contains name := by
      rw [List.contains_eq_mem, List.contains_eq_mem]
      exact decide_eq_decide.2 (h name)
    rw [hcontains]
    split
    · rw [ih h]
    · apply ih
      intro other
      rw [List.mem_cons, List.mem_cons, h]

theorem repeated_eq_nil_iff {taken names : List String} :
    repeated taken names = [] ↔ names.Nodup ∧ ∀ name ∈ names, name ∉ taken := by
  induction names generalizing taken with
  | nil => simp [repeated]
  | cons name rest ih =>
    unfold repeated
    rw [List.contains_eq_mem]
    split
    · next hin =>
      rw [decide_eq_true_eq] at hin
      simp [hin]
    · next hout =>
      rw [decide_eq_true_eq] at hout
      rw [ih, List.nodup_cons, List.forall_mem_cons]
      constructor
      · rintro ⟨hnodup, hnew⟩
        refine ⟨⟨fun hmem => hnew name hmem List.mem_cons_self, hnodup⟩, hout, fun other hother => ?_⟩
        exact fun hin => hnew other hother (List.mem_cons_of_mem _ hin)
      · rintro ⟨⟨hname, hnodup⟩, _, hnew⟩
        refine ⟨hnodup, fun other hother hin => ?_⟩
        rcases List.mem_cons.1 hin with rfl | hin
        · exact hname hother
        · exact hnew other hother hin

theorem SameNames.repeated {exact : Prop} {names names' taken taken' : List String}
    (h : SameNames exact names names') (ht : ∀ name, name ∈ taken ↔ name ∈ taken') :
    Same exact (repeated taken names) (Yang.repeated taken' names') where
  nil := by
    rw [repeated_congr ht, repeated_eq_nil_iff, repeated_eq_nil_iff, h.perm.nodup_iff]
    simp only [h.perm.mem_iff]
  eq := fun he => by rw [h.eq he, repeated_congr ht]

structure Body.Like (body body' : Body) : Prop where
  prefixId : body.prefixId = body'.prefixId
  description : body.description = body'.description
  imports : body.imports = body'.imports
  includes : body.includes = body'.includes
  source : body.source = body'.source

namespace Document

variable {d d' : Document}

theorem word_eq (h : d.outline = d'.outline) : d.word = d'.word := by
  have hword : ∀ d : Document, d.outline.word = d.word := by
    intro d
    cases d <;> rfl
  rw [← hword, h, hword]

theorem name_eq (h : d.outline = d'.outline) : d.name = d'.name := by
  have hname : ∀ d : Document, d.outline.name = d.name := by
    intro d
    cases d <;> rfl
  rw [← hname, h, hname]

theorem body_like (h : d.outline = d'.outline) : d.body.Like d'.body := by
  have hbody : ∀ d : Document, d.outline.body = d.body.outline := by
    intro d
    cases d <;> rfl
  have heq : d.body.outline = d'.body.outline := by rw [← hbody, h, hbody]
  obtain ⟨hid, _, _, hdescription, _, himports, hincludes, _, _, _, _, hsource⟩ := Body.mk.inj heq
  exact ⟨hid, hdescription, himports, hincludes, hsource⟩

theorem uri_eq {m m' : Module} (h : (main m).outline = (main m').outline) : m.uri = m'.uri := by
  unfold outline at h
  exact (Module.mk.inj (main.inj h)).2.1

theorem owner_eq {s s' : Submodule} (h : (part s).outline = (part s').outline) : s.owner = s'.owner := by
  unfold outline at h
  exact (Submodule.mk.inj (part.inj h)).2.1

end Document

structure Context.Alike (r : Document → Document → Prop) (context context' : Context) : Prop where
  document : r context.document context'.document
  owner : context.owner = context'.owner
  prefixes : context.prefixes = context'.prefixes

structure Scope.Alike (r : Document → Document → Prop) (scope scope' : Scope) : Prop where
  main : r (.main scope.main) (.main scope'.main)
  contexts : List.Forall₂ (Context.Alike r) scope.contexts scope'.contexts

theorem Context.Alike.first {r : Document → Document → Prop} {d d' : Document} (h : r d d')
    (houtline : d.outline = d'.outline) (owner : String) : (first owner d).Alike r (first owner d') where
  document := h
  owner := rfl
  prefixes := by
    unfold Context.first
    rw [(Document.body_like houtline).prefixId]

theorem Context.problem_eq {context context' : Context}
    (h : context.document.outline = context'.document.outline) : context.problem = context'.problem := by
  unfold Context.problem
  funext finding
  dsimp only
  rw [Document.word_eq h, Document.name_eq h, (Document.body_like h).source]

namespace Gathering

variable {exact : Prop} {r : Document → Document → Prop} {g g' : Gathering}

structure Alike (exact : Prop) (r : Document → Document → Prop) (g g' : Gathering) : Prop where
  store : Store.Alike r g.store g'.store
  problems : Same exact g.problems g'.problems
  breakdown : g.breakdown = g'.breakdown

theorem Alike.reportAll (h : Alike exact r g g') {more more' : List Diagnostic} (hmore : Same exact more more') :
    Alike exact r { g with problems := g.problems ++ more } { g' with problems := g'.problems ++ more' } :=
  ⟨h.store, h.problems.append hmore, h.breakdown⟩

theorem Alike.report (h : Alike exact r g g') (d : Diagnostic) : Alike exact r (g.report d) (g'.report d) :=
  h.reportAll (Same.refl exact [d])

theorem Alike.note (h : Alike exact r g g') (n : Note) : Alike exact r (g.note n) (g'.note n) := by
  unfold Gathering.note
  have hvoid : g.breakdown.isSome = g'.breakdown.isSome := by rw [h.breakdown]
  rw [hvoid]
  split
  · exact h
  · exact ⟨h.store.note n n, h.problems, h.breakdown⟩

theorem Alike.look {α : Type} {get : Store → String → Option α} {p : α → α → Prop}
    (hget : ∀ {store store'}, Store.Alike r store store' → ∀ name, Option.Rel p (get store name) (get store' name))
    (h : Alike exact r g g') (hl : Likeness exact r) (files : Files) (name : String) :
    Option.Rel p (g.look (Store.find get) files name).1 (g'.look (Store.find get) files name).1
      ∧ Alike exact r (g.look (Store.find get) files name).2 (g'.look (Store.find get) files name).2 := by
  unfold Gathering.look
  have hvoid : g.breakdown.isSome = g'.breakdown.isSome := by rw [h.breakdown]
  rw [hvoid]
  split
  · exact ⟨.none, h⟩
  · obtain ⟨hresult, hstores⟩ := h.store.find hget hl.refl files name
    generalize Store.find get g.store files name = a at hresult hstores ⊢
    generalize Store.find get g'.store files name = b at hresult hstores ⊢
    obtain ⟨outcome, store⟩ := a
    obtain ⟨outcome', store'⟩ := b
    dsimp only at hresult hstores
    rcases hresult with ⟨refusal, rfl, rfl⟩ | ⟨found, found', rfl, rfl, hfound⟩
    · cases refusal with
      | problem d =>
        have hloaded : Alike exact r { g with store := store } { g' with store := store' } :=
          ⟨hstores, h.problems, h.breakdown⟩
        exact ⟨.none, hloaded.report d⟩
      | breakdown cause => exact ⟨.none, hstores, h.problems, rfl⟩
    · exact ⟨hfound, hstores, h.problems, h.breakdown⟩

theorem Alike.mention (hl : Likeness exact r) (h : Alike exact r g g') (files : Files) (owner : String)
    {d d' : Document} (hd : r d d') (mentioned names : List String) :
    let a := mention files owner d mentioned g names
    let b := mention files owner d' mentioned g' names
    List.Forall₂ r a.1 b.1 ∧ a.2.1 = b.2.1 ∧ Alike exact r a.2.2 b.2.2 := by
  have hproblem : (Context.first owner d).problem = (Context.first owner d').problem := by
    apply Context.problem_eq
    exact hl.outline hd
  induction names generalizing mentioned g g' with
  | nil => exact ⟨.nil, rfl, h⟩
  | cons name rest ih =>
    unfold Gathering.mention
    split
    · exact ih h mentioned
    · obtain ⟨hfound, hlooked⟩ := h.look (fun hs => hs.submodules) hl files name
      change Option.Rel _ (g.look Store.findSubmodule files name).1 (g'.look Store.findSubmodule files name).1 at hfound
      change Alike exact r (g.look Store.findSubmodule files name).2 (g'.look Store.findSubmodule files name).2
        at hlooked
      generalize g.look Store.findSubmodule files name = a at hfound hlooked
      generalize g'.look Store.findSubmodule files name = b at hfound hlooked
      obtain ⟨found, g₁⟩ := a
      obtain ⟨found', g₁'⟩ := b
      dsimp only at hfound hlooked ⊢
      cases hfound with
      | none =>
        dsimp only
        rw [hproblem]
        exact ih (hlooked.report _) _
      | @some s s' hs =>
        have howner := Document.owner_eq (hl.outline hs)
        dsimp only
        rw [howner, hproblem]
        split
        · obtain ⟨hmore, hmentioned, hafter⟩ := ih hlooked (name :: mentioned)
          exact ⟨.cons hs hmore, hmentioned, hafter⟩
        · exact ih (hlooked.report _) _

theorem Alike.closure (hl : Likeness exact r) (h : Alike exact r g g') (files : Files) (owner : String)
    (mentioned : List String) {queue queue' : List Document} (hq : List.Forall₂ r queue queue') :
    let a := closure files owner mentioned g queue
    let b := closure files owner mentioned g' queue'
    List.Forall₂ r a.1 b.1 ∧ Alike exact r a.2 b.2 := by
  fun_induction Gathering.closure files owner mentioned g queue generalizing g' queue' with
  | case1 mentioned g =>
    cases hq
    rw [Gathering.closure]
    exact ⟨.nil, h⟩
  | case2 mentioned g document rest a more after heq =>
    -- the names that were mentioned are the same, so the other closure takes the same step
    rename_i ih
    cases hq with
    | @cons _ document' _ rest' hd hrest =>
      obtain ⟨hparts, hmentioned, hafter⟩ :=
        h.mention hl files owner hd mentioned document.body.includes
      rw [Gathering.closure]
      dsimp only
      rw [← (Document.body_like (hl.outline hd)).includes, ← hmentioned]
      obtain ⟨hmore, hfinal⟩ := ih hafter (List.rel_append hrest hparts)
      rw [heq] at hmore hfinal
      exact ⟨.cons hd hmore, hfinal⟩

theorem Alike.bindImports (hl : Likeness exact r) (h : Alike exact r g g') (files : Files) (known : List String)
    {context context' : Context} (hc : context.Alike r context') (imports : List Import) :
    let a := bindImports files known context g imports
    let b := bindImports files known context' g' imports
    a.1.Alike r b.1 ∧ a.2.1 = b.2.1 ∧ Alike exact r a.2.2 b.2.2 := by
  induction imports generalizing context context' g g' with
  | nil => exact ⟨hc, rfl, h⟩
  | cons i rest ih =>
    have houtline := hl.outline hc.document
    unfold Gathering.bindImports
    rw [(Document.body_like houtline).prefixId, hc.prefixes, Context.problem_eq houtline]
    split
    · exact ih (h.report _) hc
    · split
      · exact ih (h.report _) hc
      · obtain ⟨hfound, hlooked⟩ := h.look (fun hs => hs.modules) hl files i.moduleName
        change Option.Rel _ (g.look Store.findModule files i.moduleName).1
          (g'.look Store.findModule files i.moduleName).1 at hfound
        change Alike exact r (g.look Store.findModule files i.moduleName).2
          (g'.look Store.findModule files i.moduleName).2 at hlooked
        generalize g.look Store.findModule files i.moduleName = a at hfound hlooked ⊢
        generalize g'.look Store.findModule files i.moduleName = b at hfound hlooked ⊢
        obtain ⟨found, g₁⟩ := a
        obtain ⟨found', g₁'⟩ := b
        dsimp only at hfound hlooked ⊢
        cases hfound with
        | none => exact ih (hlooked.report _) hc
        | some _ =>
          have hmore : Context.Alike r
              { context with prefixes := context.prefixes ++ [(i.prefixId, i.moduleName)] }
              { context' with prefixes := context'.prefixes ++ [(i.prefixId, i.moduleName)] } :=
            ⟨hc.document, hc.owner, by rw [hc.prefixes]⟩
          rw [hc.prefixes] at hmore
          obtain ⟨hbound, hneeded, hafter⟩ := ih hlooked hmore
          refine ⟨hbound, ?_, hafter⟩
          dsimp only
          rw [hneeded]

theorem enterAll_spec {α : Type} [Defined α] (context : Context) (table : Table α) (g : Gathering) (l : List α) :
    (enterAll α context table g l).1 = (l.map fun definition => ⟨definition, context⟩).foldl Table.enter table
      ∧ (enterAll α context table g l).2
        = (let found := (repeated table.names (l.map Defined.name)).map
            (fun n => context.problem (.duplicate (Defined.kind α) n))
          { g with problems := g.problems ++ found }) := by
  induction l generalizing table g with
  | nil => simp [enterAll, repeated]
  | cons definition rest ih =>
    unfold enterAll
    dsimp only
    obtain ⟨htable, hafter⟩ := ih (table.enter ⟨definition, context⟩)
      (if (table.lookup (Defined.name definition)).isSome then
        g.report (context.problem (.duplicate (Defined.kind α) (Defined.name definition))) else g)
    rw [htable, hafter, List.map_cons, List.map_cons, List.foldl_cons]
    refine ⟨rfl, ?_⟩
    have hnames : repeated (table.enter ⟨definition, context⟩).names (rest.map Defined.name)
        = repeated (Defined.name definition :: table.names) (rest.map Defined.name) := by
      apply repeated_congr
      intro name
      rw [Table.mem_names_enter, List.mem_cons, or_comm]
    rw [hnames, repeated, List.contains_eq_mem]
    by_cases hin : Defined.name definition ∈ table.names
    · rw [if_pos (Table.isSome_lookup_iff.2 hin), if_pos (decide_eq_true hin)]
      -- a name that is taken already adds nothing to the names
      rw [@repeated_congr (_ :: table.names) table.names fun name => by
        rw [List.mem_cons, or_iff_right_of_imp fun h => h ▸ hin]]
      simp [Gathering.report]
    · rw [if_neg (mt Table.isSome_lookup_iff.1 hin), if_neg (by simpa using hin)]

theorem mem_names_enterAll {α : Type} [Defined α] {context : Context} {table : Table α} {g : Gathering} {l : List α}
    {name : String} :
    name ∈ (enterAll α context table g l).1.names ↔ name ∈ table.names ∨ name ∈ l.map Defined.name := by
  rw [(enterAll_spec context table g l).1, ← Table.isSome_lookup_iff, Table.lookup_foldl_enter, Option.isSome_or,
    Bool.or_eq_true, Table.isSome_lookup_iff, List.find?_isSome]
  simp

theorem Alike.enterAll {α : Type} [Defined α] (h : Alike exact r g g') {context context' : Context}
    (hproblem : context.problem = context'.problem) {table table' : Table α}
    (ht : ∀ name, name ∈ table.names ↔ name ∈ table'.names) {l l' : List α}
    (hl : SameNames exact (l.map Defined.name) (l'.map Defined.name)) :
    let a := enterAll α context table g l
    let b := enterAll α context' table' g' l'
    (∀ name, name ∈ a.1.names ↔ name ∈ b.1.names) ∧ Alike exact r a.2 b.2 := by
  dsimp only
  constructor
  · intro name
    rw [mem_names_enterAll, mem_names_enterAll, ht, hl.perm.mem_iff]
  · rw [(enterAll_spec context table g l).2, (enterAll_spec context' table' g' l').2, hproblem]
    apply h.reportAll
    apply Same.map
    exact hl.repeated ht

theorem Alike.contextualise (hl : Likeness exact r) (h : Alike exact r g g') (files : Files) (known : List String)
    (owner : String) {typedefs typedefs' : Table Typedef} {groupings groupings' : Table Grouping}
    (ht : ∀ name, name ∈ typedefs.names ↔ name ∈ typedefs'.names)
    (hg : ∀ name, name ∈ groupings.names ↔ name ∈ groupings'.names) {documents documents' : List Document}
    (hd : List.Forall₂ r documents documents') :
    let a := contextualise files known owner typedefs groupings g documents
    let b := contextualise files known owner typedefs' groupings' g' documents'
    List.Forall₂ (Context.Alike r) a.1 b.1 ∧ a.2.1 = b.2.1 ∧ Alike exact r a.2.2 b.2.2 := by
  induction hd generalizing typedefs typedefs' groupings groupings' g g' with
  | nil => exact ⟨.nil, rfl, h⟩
  | @cons document document' rest rest' hdocument _ ih =>
    have houtline := hl.outline hdocument
    unfold Gathering.contextualise
    dsimp only
    rw [← (Document.body_like houtline).imports]
    obtain ⟨hcontext, hneeded, h₁⟩ := h.bindImports hl files known
      (Context.Alike.first hdocument houtline owner) document.body.imports
    generalize Gathering.bindImports files known (.first owner document) g document.body.imports = a
      at hcontext hneeded h₁ ⊢
    generalize Gathering.bindImports files known (.first owner document') g' document.body.imports = b
      at hcontext hneeded h₁ ⊢
    obtain ⟨context, needed, g₁⟩ := a
    obtain ⟨context', needed', g₁'⟩ := b
    dsimp only at hcontext hneeded h₁ ⊢
    have hproblem := Context.problem_eq (hl.outline hcontext.document)
    obtain ⟨ht', h₂⟩ := h₁.enterAll hproblem ht (hl.typedefs hdocument)
    obtain ⟨hg', h₃⟩ := h₂.enterAll hproblem hg (hl.groupings hdocument)
    obtain ⟨hcontexts, hmore, hafter⟩ := ih h₃ ht' hg'
    refine ⟨.cons hcontext hcontexts, ?_, hafter⟩
    rw [hneeded, hmore]

theorem Alike.scope (hl : Likeness exact r) (h : Alike exact r g g') (files : Files) (known : List String)
    {main main' : Module} (hm : r (.main main) (.main main')) :
    let a := scope files known main g
    let b := scope files known main' g'
    a.1.Alike r b.1 ∧ a.2.1 = b.2.1 ∧ Alike exact r a.2.2 b.2.2 := by
  have hname : main.name = main'.name := Document.name_eq (hl.outline hm)
  unfold Gathering.scope
  dsimp only
  obtain ⟨hdocuments, h₁⟩ := h.closure hl files main.name [] (.cons hm .nil)
  rw [← hname]
  generalize Gathering.closure files main.name [] g [.main main] = a at hdocuments h₁ ⊢
  generalize Gathering.closure files main.name [] g' [.main main'] = b at hdocuments h₁ ⊢
  obtain ⟨documents, g₁⟩ := a
  obtain ⟨documents', g₁'⟩ := b
  dsimp only at hdocuments h₁ ⊢
  obtain ⟨hcontexts, hneeded, h₂⟩ := @Alike.contextualise _ _ _ _ hl h₁ files known main.name [] [] [] []
    (fun _ => Iff.rfl) (fun _ => Iff.rfl) _ _ hdocuments
  refine ⟨⟨hm, hcontexts⟩, hneeded, ?_⟩
  rw [hdocuments.length_eq]
  exact h₂.note _

theorem scopedNames_eq (hl : Likeness exact r) {scopes scopes' : Scopes}
    (hs : List.Forall₂ (Scope.Alike r) scopes scopes') : scopedNames scopes = scopedNames scopes' := by
  induction hs with
  | nil => rfl
  | cons hscope _ ih =>
    unfold scopedNames at ih ⊢
    rw [List.map_cons, List.map_cons, ih]
    congr 1
    exact Document.name_eq (hl.outline hscope.main)

def NextAlike (r : Document → Document → Prop) : Option (Module × List String) → Option (Module × List String) → Prop :=
  Option.Rel (fun a b => r (.main a.1) (.main b.1) ∧ a.2 = b.2)

theorem nextNeeded_alike (hl : Likeness exact r) {store store' : Store} (h : store.Alike r store')
    {scopes scopes' : Scopes} (hs : scopedNames scopes = scopedNames scopes') (needed : List String) :
    NextAlike r (nextNeeded store scopes needed) (nextNeeded store' scopes' needed) := by
  induction needed with
  | nil => exact .none
  | cons name rest ih =>
    unfold nextNeeded
    have hm := h.modules name
    generalize store.module? name = found at hm
    generalize store'.module? name = found' at hm
    cases hm with
    | none => exact ih
    | @some m m' hm =>
      dsimp only
      have hname : m.name = m'.name := Document.name_eq (hl.outline hm)
      rw [← hs, ← hname]
      split
      · exact ih
      · exact .some ⟨hm, rfl⟩

theorem next_alike (hl : Likeness exact r) {store store' : Store} (h : store.Alike r store')
    {scopes scopes' : Scopes} (hs : scopedNames scopes = scopedNames scopes') (needed : List String) :
    NextAlike r (next store scopes needed) (next store' scopes' needed) := by
  unfold next
  rw [← h.names_topLevel]
  apply rel_or
  · exact nextNeeded_alike hl h hs needed
  · exact nextNeeded_alike hl h hs _

theorem Runs.alike (hl : Likeness exact r) {files : Files} {scopes final scopes' : Scopes} {needed : List String}
    {after : Gathering}
    (hrun : Runs files scopes needed g final after) (h : Alike exact r g g')
    (hs : List.Forall₂ (Scope.Alike r) scopes scopes') :
    ∃ final' after', Runs files scopes' needed g' final' after'
      ∧ List.Forall₂ (Scope.Alike r) final final' ∧ Alike exact r after after' := by
  induction hrun generalizing scopes' g' with
  | @done scopes needed g hnext =>
    have hsame := next_alike hl h.store (scopedNames_eq hl hs) needed
    rw [hnext] at hsame
    generalize hnext' : next g'.store scopes' needed = following at hsame
    cases hsame
    exact ⟨scopes', g', .done hnext', hs, h⟩
  | @scope scopes final needed rest main g after hnext _ ih =>
    have hsame := next_alike hl h.store (scopedNames_eq hl hs) needed
    rw [hnext] at hsame
    generalize hnext' : next g'.store scopes' needed = following at hsame
    cases hsame with
    | @some _ found hfound =>
      obtain ⟨main', rest'⟩ := found
      obtain ⟨hmain, hrest⟩ := hfound
      dsimp only at hmain hrest
      subst hrest
      obtain ⟨hscope, hneeded, hafter⟩ := h.scope hl files (scopedNames scopes) hmain
      rw [scopedNames_eq hl hs] at hscope hneeded hafter ih
      obtain ⟨final', after', hrun', hfinal, hend⟩ := ih hafter (List.rel_append hs (.cons hscope .nil))
      rw [hneeded] at hrun'
      exact ⟨final', after', .scope hnext' hrun', hfinal, hend⟩

end Gathering

end Yang

import Yang.Scope
import Yang.Store

/-!
This module contains the gathering of scopes: which documents belong to a module, what their prefixes stand for, and
which modules are needed besides. Records that are not there are loaded from files. Every step either loads a file or
turns to one more of the records that are there, so the gathering comes to an end whatever the documents refer to.
-/

namespace Yang

/--
The state of a gathering. After a breakdown nothing more is loaded and the gathering is void.
-/
structure Gathering where
  store : Store
  problems : List Diagnostic
  breakdown : Option Breakdown
  deriving Repr, Inhabited

namespace Gathering

def report (g : Gathering) (d : Diagnostic) : Gathering :=
  { g with problems := g.problems ++ [d] }

def note (g : Gathering) (n : Note) : Gathering :=
  if g.breakdown.isSome then g else { g with store := g.store.note n }

def look {α : Type} (finder : Store → Files → String → Store.Loading (Option α)) (files : Files)
    (name : String) (g : Gathering) : Option α × Gathering :=
  if g.breakdown.isSome then
    (none, g)
  else
    match finder g.store files name with
    | (.ok found, store) => (found, { g with store := store })
    | (.error (.problem d), store) => (none, ({ g with store := store } : Gathering).report d)
    | (.error (.breakdown cause), store) => (none, { g with store := store, breakdown := some cause })

theorem follows_look {α : Type} (get : Store → String → Option α) (files : Files) (name : String)
    (g : Gathering) :
    Store.Follows files g.store (look (Store.find get) files name g).2.store := by
  have h := Store.follows_find get g.store files name
  unfold look
  split
  · exact Store.Follows.refl _ _
  · split <;> next heq => rw [heq] at h; exact h

theorem get_of_look {α : Type} {get : Store → String → Option α} {files : Files} {name : String}
    {g : Gathering} {found : α} (h : (look (Store.find get) files name g).1 = some found) :
    get (look (Store.find get) files name g).2.store name = some found := by
  unfold look at h ⊢
  split at h
  · cases h
  · next hf =>
    simp only [hf]
    unfold Store.find at h ⊢
    cases hg : get g.store name with
    | some r =>
      simp only [hg] at h ⊢
      cases h
      exact hg
    | none =>
      simp only [hg] at h ⊢
      cases ho : (g.store.load files name).1 with
      | ok _ =>
        simp only [ho, Except.map] at h ⊢
        exact h
      | error e => cases e <;> simp [ho, Except.map] at h

def mention (files : Files) (owner : String) (document : Document) (mentioned : List String) (g : Gathering) :
    List String → List Document × List String × Gathering
  | [] => ([], mentioned, g)
  | name :: rest =>
    if mentioned.contains name then
      mention files owner document mentioned g rest
    else
      let context := Context.first owner document
      let (found, g) := g.look Store.findSubmodule files name
      match found with
      | none =>
        mention files owner document (name :: mentioned)
          (g.report (context.problem (.includeNotFound name))) rest
      | some s =>
        if s.owner = owner then
          let (more, mentioned, g) := mention files owner document (name :: mentioned) g rest
          (.part s :: more, mentioned, g)
        else
          mention files owner document (name :: mentioned)
            (g.report (context.problem (.includeOfOther name s.owner))) rest

def unmentioned (store : Store) (mentioned : List String) : Nat :=
  (store.submodules.filter (fun s => !mentioned.contains s.name)).length

theorem unmentioned_cons_le (store : Store) (mentioned : List String) (name : String) :
    unmentioned store (name :: mentioned) ≤ unmentioned store mentioned := by
  refine Measure.length_filter_le _ fun s _ hs => ?_
  simp only [List.contains_cons, Bool.not_or, Bool.and_eq_true] at hs
  exact hs.2

theorem unmentioned_cons_lt {store : Store} {mentioned : List String} {name : String} {s : Submodule}
    (h : store.submodule? name = some s) (hnew : mentioned.contains name = false) :
    unmentioned store (name :: mentioned) < unmentioned store mentioned := by
  have hname : s.name = name := by simpa using List.find?_some h
  refine Measure.length_filter_lt ?_ (List.mem_of_find?_eq_some h) ?_ ?_
  · intro s _ hs
    simp only [List.contains_cons, Bool.not_or, Bool.and_eq_true] at hs
    exact hs.2
  · simpa [hname] using hnew
  · simp [hname]

theorem mention_measure (files : Files) (owner : String) (document : Document) (mentioned : List String)
    (g : Gathering) (names : List String) :
    let r := mention files owner document mentioned g names
    r.2.2.store.unsearched files < g.store.unsearched files
      ∨ (r.2.2.store.unsearched files = g.store.unsearched files
        ∧ r.2.2.store.submodules = g.store.submodules
        ∧ unmentioned r.2.2.store r.2.1 + r.1.length ≤ unmentioned g.store mentioned) := by
  induction names generalizing mentioned g with
  | nil => exact Or.inr ⟨rfl, rfl, by simp [mention]⟩
  | cons name rest ih =>
    unfold mention
    split
    · exact ih mentioned g
    · next hnew =>
      have hnew : mentioned.contains name = false := by simpa using hnew
      have hfollows := follows_look Store.submodule? files name g
      have hget := @get_of_look _ Store.submodule? files name g
      change Store.Follows files g.store (g.look Store.findSubmodule files name).2.store at hfollows
      change ∀ {found}, (g.look Store.findSubmodule files name).1 = some found →
        Store.submodule? (g.look Store.findSubmodule files name).2.store name = some found at hget
      generalize g.look Store.findSubmodule files name = looked at hfollows hget
      obtain ⟨found, g'⟩ := looked
      dsimp only at hfollows hget ⊢
      have skip : ∀ d : Diagnostic,
          let r := mention files owner document (name :: mentioned) (g'.report d) rest
          r.2.2.store.unsearched files < g.store.unsearched files
            ∨ (r.2.2.store.unsearched files = g.store.unsearched files
              ∧ r.2.2.store.submodules = g.store.submodules
              ∧ unmentioned r.2.2.store r.2.1 + r.1.length ≤ unmentioned g.store mentioned) := by
        intro d
        have hr := ih (name :: mentioned) (g'.report d)
        have hs : (g'.report d).store = g'.store := rfl
        rw [hs] at hr
        rcases hr with hr | ⟨h₁, h₂, h₃⟩
        · exact Or.inl (Nat.lt_of_lt_of_le hr hfollows.unsearched_le)
        · rcases hfollows with hf | ⟨k₁, _, k₃⟩
          · exact Or.inl (h₁ ▸ hf)
          · refine Or.inr ⟨h₁.trans (Store.unsearched_congr k₁), h₂.trans k₃, ?_⟩
            have hu : unmentioned g'.store (name :: mentioned) = unmentioned g.store (name :: mentioned) := by
              simp [unmentioned, k₃]
            exact Nat.le_trans h₃ (hu ▸ unmentioned_cons_le _ _ _)
      cases found with
      | none => exact skip _
      | some s =>
        dsimp only
        split
        · have hr := ih (name :: mentioned) g'
          dsimp only at hr ⊢
          rcases hr with hr | ⟨h₁, h₂, h₃⟩
          · exact Or.inl (Nat.lt_of_lt_of_le hr hfollows.unsearched_le)
          · rcases hfollows with hf | ⟨k₁, _, k₃⟩
            · exact Or.inl (h₁ ▸ hf)
            · refine Or.inr ⟨h₁.trans (Store.unsearched_congr k₁), h₂.trans k₃, ?_⟩
              have hlt := unmentioned_cons_lt (hget rfl) hnew
              have hu : unmentioned g'.store mentioned = unmentioned g.store mentioned := by
                simp [unmentioned, k₃]
              exact Nat.lt_of_le_of_lt h₃ (hu ▸ hlt)
        · exact skip _

/--
A document and those that it and they include, in the order in which they are first mentioned.
-/
def closure (files : Files) (owner : String) (mentioned : List String) (g : Gathering) (queue : List Document) :
    List Document × Gathering :=
  match queue with
  | [] => ([], g)
  | document :: rest =>
    let r := mention files owner document mentioned g document.body.includes
    -- what a document includes waits behind what was included before it
    let (more, g) := closure files owner r.2.1 r.2.2 (rest ++ r.1)
    (document :: more, g)
termination_by (g.store.unsearched files, unmentioned g.store mentioned + queue.length)
decreasing_by
  have h := mention_measure files owner document mentioned g document.body.includes
  simp only [Prod.lex_def]
  rcases h with h | ⟨h₁, _, h₃⟩
  · exact Or.inl h
  · refine Or.inr ⟨h₁, ?_⟩
    simp only [List.length_append, List.length_cons]
    omega

/--
Bind the prefixes of imports. Modules that have no scope are needed besides.
-/
def bindImports (files : Files) (known : List String) (context : Context) (g : Gathering) :
    List Import → Context × List String × Gathering
  | [] => (context, [], g)
  | i :: rest =>
    if i.prefixId = context.document.body.prefixId then
      bindImports files known context
        (g.report (context.problem (.prefixShadows i.moduleName i.prefixId))) rest
    else if (context.prefixes.lookup i.prefixId).isSome then
      bindImports files known context
        (g.report (context.problem (.prefixTaken i.moduleName i.prefixId))) rest
    else
      let (found, g) := g.look Store.findModule files i.moduleName
      match found with
      | none =>
        bindImports files known context (g.report (context.problem (.importNotFound i.moduleName))) rest
      | some _ =>
        let context := { context with prefixes := context.prefixes ++ [(i.prefixId, i.moduleName)] }
        let (context, needed, g) := bindImports files known context g rest
        (context, if known.contains i.moduleName then needed else i.moduleName :: needed, g)

def enterAll (α : Type) [Defined α] (context : Context) (table : Table α) (g : Gathering) :
    List α → Table α × Gathering
  | [] => (table, g)
  | definition :: rest =>
    let name := Defined.name definition
    let g :=
      if (table.lookup name).isSome then g.report (context.problem (.duplicate (Defined.kind α) name)) else g
    enterAll α context (table.enter ⟨definition, context⟩) g rest

def contextualise (files : Files) (known : List String) (owner : String) (typedefs : Table Typedef)
    (groupings : Table Grouping) (g : Gathering) : List Document → List Context × List String × Gathering
  | [] => ([], [], g)
  | document :: rest =>
    let body := document.body
    let (context, needed, g) := bindImports files known (.first owner document) g body.imports
    let (typedefs, g) := enterAll Typedef context typedefs g body.typedefs
    let (groupings, g) := enterAll Grouping context groupings g body.groupings
    let (contexts, more, g) := contextualise files known owner typedefs groupings g rest
    (context :: contexts, needed ++ more, g)

def scope (files : Files) (known : List String) (main : Module) (g : Gathering) :
    Scope × List String × Gathering :=
  let (documents, g) := closure files main.name [] g [.main main]
  let (contexts, needed, g) := contextualise files known main.name [] [] g documents
  (⟨main, contexts⟩, needed, g.note (.collected main.name documents.length))

@[simp]
theorem main_scope (files : Files) (known : List String) (main : Module) (g : Gathering) :
    (scope files known main g).1.main = main := rfl

theorem follows_mention (files : Files) (owner : String) (document : Document) (mentioned : List String)
    (g : Gathering) (names : List String) :
    Store.Follows files g.store (mention files owner document mentioned g names).2.2.store := by
  induction names generalizing mentioned g with
  | nil => exact Store.Follows.refl _ _
  | cons name rest ih =>
    unfold mention
    split
    · exact ih mentioned g
    · have hfollows := follows_look Store.submodule? files name g
      change Store.Follows files g.store (g.look Store.findSubmodule files name).2.store at hfollows
      generalize g.look Store.findSubmodule files name = looked at hfollows
      obtain ⟨found, g'⟩ := looked
      dsimp only at hfollows ⊢
      cases found with
      | none => exact hfollows.trans (ih _ (g'.report _))
      | some s =>
        dsimp only
        split
        · exact hfollows.trans (ih _ g')
        · exact hfollows.trans (ih _ (g'.report _))

theorem follows_closure (files : Files) (owner : String) (mentioned : List String) (g : Gathering)
    (queue : List Document) :
    Store.Follows files g.store (closure files owner mentioned g queue).2.store := by
  fun_induction closure files owner mentioned g queue with
  | case1 => exact Store.Follows.refl _ _
  | case2 mentioned g document rest r more g' heq ih =>
    rw [heq] at ih
    exact (follows_mention _ _ _ _ _ _).trans ih

theorem follows_bindImports (files : Files) (known : List String) (context : Context) (g : Gathering)
    (imports : List Import) :
    Store.Follows files g.store (bindImports files known context g imports).2.2.store := by
  induction imports generalizing context g with
  | nil => exact Store.Follows.refl _ _
  | cons i rest ih =>
    unfold bindImports
    split
    · exact ih context (g.report _)
    · split
      · exact ih context (g.report _)
      · have hfollows := follows_look Store.module? files i.moduleName g
        change Store.Follows files g.store (g.look Store.findModule files i.moduleName).2.store at hfollows
        generalize g.look Store.findModule files i.moduleName = looked at hfollows
        obtain ⟨found, g'⟩ := looked
        dsimp only at hfollows ⊢
        cases found with
        | none => exact hfollows.trans (ih _ (g'.report _))
        | some m => exact hfollows.trans (ih _ g')

theorem store_enterAll (α : Type) [Defined α] (context : Context) (table : Table α) (g : Gathering)
    (l : List α) : (enterAll α context table g l).2.store = g.store := by
  induction l generalizing table g with
  | nil => rfl
  | cons definition rest ih =>
    unfold enterAll
    dsimp only
    rw [ih]
    split <;> rfl

theorem follows_contextualise (files : Files) (known : List String) (owner : String)
    (typedefs : Table Typedef) (groupings : Table Grouping) (g : Gathering) (documents : List Document) :
    Store.Follows files g.store
      (contextualise files known owner typedefs groupings g documents).2.2.store := by
  induction documents generalizing typedefs groupings g with
  | nil => exact Store.Follows.refl _ _
  | cons document rest ih =>
    unfold contextualise
    dsimp only
    refine (follows_bindImports files known (.first owner document) g document.body.imports).trans ?_
    generalize bindImports files known (.first owner document) g document.body.imports = bound
    obtain ⟨context, needed, g'⟩ := bound
    dsimp only
    rw [← store_enterAll Typedef context typedefs g' document.body.typedefs]
    generalize enterAll Typedef context typedefs g' document.body.typedefs = checked
    obtain ⟨typedefs', g''⟩ := checked
    dsimp only
    rw [← store_enterAll Grouping context groupings g'' document.body.groupings]
    exact ih _ _ _

theorem follows_note (files : Files) (g : Gathering) (n : Note) :
    Store.Follows files g.store (g.note n).store := by
  unfold note
  split
  · exact Store.Follows.refl _ _
  · exact Or.inr ⟨rfl, rfl, rfl⟩

theorem follows_scope (files : Files) (known : List String) (main : Module) (g : Gathering) :
    Store.Follows files g.store (scope files known main g).2.2.store := by
  unfold scope
  dsimp only
  exact ((follows_closure _ _ _ _ _).trans (follows_contextualise _ _ _ _ _ _ _)).trans
    (follows_note _ _ _)

def scopedNames (scopes : Scopes) : List String :=
  scopes.map (fun s => s.main.name)

def nextNeeded (store : Store) (scopes : Scopes) : List String → Option (Module × List String)
  | [] => none
  | name :: rest =>
    match store.module? name with
    | some m =>
      if (scopedNames scopes).contains m.name then nextNeeded store scopes rest else some (m, rest)
    | none => nextNeeded store scopes rest

def next (store : Store) (scopes : Scopes) (needed : List String) : Option (Module × List String) :=
  (nextNeeded store scopes needed).or (nextNeeded store scopes (store.topLevel.map Module.name))

theorem nextNeeded_spec {store : Store} {scopes : Scopes} {needed rest : List String} {main : Module}
    (h : nextNeeded store scopes needed = some (main, rest)) :
    main ∈ store.modules ∧ (scopedNames scopes).contains main.name = false := by
  induction needed with
  | nil => cases h
  | cons name more ih =>
    unfold nextNeeded at h
    split at h
    · next m hm =>
      split at h
      · exact ih h
      · next hnew =>
        cases h
        exact ⟨List.mem_of_find?_eq_some hm, by simpa using hnew⟩
    · exact ih h

theorem next_spec {store : Store} {scopes : Scopes} {needed rest : List String} {main : Module}
    (h : next store scopes needed = some (main, rest)) :
    main ∈ store.modules ∧ (scopedNames scopes).contains main.name = false := by
  unfold next at h
  rcases Option.or_eq_some_iff.1 h with h | ⟨_, h⟩
  · exact nextNeeded_spec h
  · exact nextNeeded_spec h

def unscoped (store : Store) (scopes : Scopes) : Nat :=
  (store.modules.filter (fun m => !(scopedNames scopes).contains m.name)).length

/--
Gather the scopes of all modules that were loaded, that are needed, or that come along in a loaded file.
-/
def all (files : Files) (scopes : Scopes) (needed : List String) (g : Gathering) : Scopes × Gathering :=
  match _h : next g.store scopes needed with
  | none => (scopes, g)
  | some (main, rest) =>
    let r := scope files (scopedNames scopes) main g
    all files (scopes ++ [r.1]) (rest ++ r.2.1) r.2.2
termination_by (g.store.unsearched files, unscoped g.store scopes)
decreasing_by
  have hf := follows_scope files (scopedNames scopes) main g
  obtain ⟨hmem, hnew⟩ := next_spec _h
  simp only [Prod.lex_def]
  rcases hf with hf | ⟨h₁, h₂, _⟩
  · exact Or.inl hf
  · refine Or.inr ⟨Store.unsearched_congr h₁, ?_⟩
    simp only [unscoped, h₂]
    refine Measure.length_filter_lt ?_ hmem (by simpa using hnew) ?_
    · intro m _ hm
      simp only [scopedNames, List.map_append, List.contains_eq_mem, List.mem_append, Bool.not_eq_true',
        decide_eq_false_iff_not, not_or] at hm ⊢
      exact hm.1
    · simp [scopedNames]

end Gathering

end Yang

import Yang.Proofs.Gather.Joined
import Yang.Proofs.ModuleSet.Alike
import Yang.Proofs.ModuleSet.Closed
import Yang.Proofs.Tree.Joined

/-!
This module contains the processing of two parts of a set together that have nothing to do with each other: what is
found in them together is what is found in each of them alone, whether it is much or nothing, and every module has the
tree that it has in its own part.
-/

namespace Yang

namespace Store

def Defines (store : Store) (name : String) : Prop :=
  (store.module? name).isSome = true ∨ (store.submodule? name).isSome = true

/--
Whether two stores have nothing to do with each other: they have no module, no submodule and no searched file in common,
and no document of one of them includes or imports what the other one defines.
-/
structure Unrelated (s t : Store) : Prop where
  modules : ∀ m ∈ s.modules, ∀ n ∈ t.modules, m.name ≠ n.name
  submodules : ∀ a ∈ s.submodules, ∀ b ∈ t.submodules, a.name ≠ b.name
  searched : ∀ site ∈ s.searched, site ∉ t.searched
  wanted : ∀ name, s.Wanted name → ¬ t.Defines name
  wanted' : ∀ name, t.Wanted name → ¬ s.Defines name

theorem Unrelated.symm {s t : Store} (h : s.Unrelated t) : t.Unrelated s where
  modules := fun m hm n hn heq => h.modules n hn m hm heq.symm
  submodules := fun a ha b hb heq => h.submodules b hb a ha heq.symm
  searched := fun site hin hin' => h.searched site hin' hin
  wanted := h.wanted'
  wanted' := h.wanted

theorem Unrelated.minds {g g' : Gathering} (h : g.store.Unrelated g'.store) (hnone : g.breakdown = none) :
    Gathering.Minds g'.store.foreign g where
  ignores := by
    intro d hd _
    constructor
    · intro name hname
      have hnot := h.wanted name ⟨d, hd, .inl hname⟩
      exact Bool.eq_false_iff.2 fun hsome => hnot (.inr hsome)
    · intro i hi
      have hnot := h.wanted i.moduleName ⟨d, hd, .inr ⟨i, hi, rfl⟩⟩
      exact Bool.eq_false_iff.2 fun hsome => hnot (.inl hsome)
  sites := by
    intro site hsite
    change g'.store.searched.contains site = false
    rw [List.contains_eq_mem, decide_eq_false_iff_not]
    exact h.searched site hsite
  breakdown := hnone

theorem Unrelated.gathering {g g' : Gathering} (h : g.store.Unrelated g'.store) (hnone : g.breakdown = none)
    (hnone' : g'.breakdown = none) : g.Unrelated g' where
  modules := by
    intro name hsome
    obtain ⟨m, hm⟩ := Option.isSome_iff_exists.1 hsome
    cases hfound : g'.store.module? name with
    | none => rfl
    | some n =>
      obtain ⟨hmem, hname⟩ := module?_spec hm
      obtain ⟨hmem', hname'⟩ := module?_spec hfound
      exact absurd (hname.trans hname'.symm) (h.modules m hmem n hmem')
  submodules := by
    intro name hsome
    obtain ⟨a, ha⟩ := Option.isSome_iff_exists.1 hsome
    cases hfound : g'.store.submodule? name with
    | none => rfl
    | some b =>
      have hname : a.name = name := by simpa using List.find?_some ha
      have hname' : b.name = name := by simpa using List.find?_some hfound
      exact absurd (hname.trans hname'.symm)
        (h.submodules a (List.mem_of_find?_eq_some ha) b (List.mem_of_find?_eq_some hfound))
  minds := h.minds hnone
  minds' := h.symm.minds hnone'

theorem Joins.agrees {s t u u' : Store} (h : s.Joins t u) (hu : u.Agrees u') : s.Joins t u' where
  searchPath := hu.searchPath.symm.trans h.searchPath
  searchPath' := hu.searchPath.symm.trans h.searchPath'
  modules := fun name => by rw [← hu.modules, h.modules]
  submodules := fun name => by rw [← hu.submodules, h.submodules]
  searched := fun site => by rw [← hu.searched, h.searched]

section

variable {base : Store} {documents documents' all : List Document} (hmodules : base.modules = [])
  (hsubmodules : base.submodules = [])

include hmodules hsubmodules

theorem joins_addAll (h : Merged documents documents' all) (hapart : ∀ d ∈ documents, ∀ d' ∈ documents', Apart d d') :
    (base.addAll documents).Joins (base.addAll documents') (base.addAll all) := by
  have hreceives := receives_addAll base documents
  have hreceives' := receives_addAll base documents'
  have hall := receives_addAll base all
  constructor
  · rw [hall.searchPath, hreceives.searchPath]
  · rw [hall.searchPath, hreceives'.searchPath]
  · intro name
    unfold Store.module?
    rw [hall.modules, hreceives.modules, hreceives'.modules, hmodules]
    apply (h.filterMap Document.main?).find?_eq_or
    intro m hm hname n hn
    obtain ⟨d, hd, hmain⟩ := List.mem_filterMap.1 hm
    obtain ⟨d', hd', hmain'⟩ := List.mem_filterMap.1 hn
    cases d with
    | part _ => cases hmain
    | main _ =>
      cases d' with
      | part _ => cases hmain'
      | main _ =>
        cases hmain
        cases hmain'
        rw [beq_iff_eq] at hname
        rw [beq_eq_false_iff_ne, ← hname]
        exact (hapart _ hd _ hd' rfl).symm
  · intro name
    unfold Store.submodule?
    rw [hall.submodules, hreceives.submodules, hreceives'.submodules, hsubmodules]
    apply (h.filterMap Document.part?).find?_eq_or
    intro a ha hname b hb
    obtain ⟨d, hd, hpart⟩ := List.mem_filterMap.1 ha
    obtain ⟨d', hd', hpart'⟩ := List.mem_filterMap.1 hb
    cases d with
    | main _ => cases hpart
    | part _ =>
      cases d' with
      | main _ => cases hpart'
      | part _ =>
        cases hpart
        cases hpart'
        rw [beq_iff_eq] at hname
        rw [beq_eq_false_iff_ne, ← hname]
        exact (hapart _ hd _ hd' rfl).symm
  · intro site
    rw [hall.searched, hreceives.searched, hreceives'.searched, or_self]

theorem joins_addAll_perm (hperm : (documents ++ documents').Perm all)
    (hapart : (documents ++ documents').Pairwise Apart) :
    (base.addAll documents).Joins (base.addAll documents') (base.addAll all) := by
  have happend : Merged documents documents' (documents ++ documents') := by
    have hmerged := (merged_left documents).append (merged_left documents').symm
    rw [List.append_nil, List.nil_append] at hmerged
    exact hmerged
  have hjoins := joins_addAll hmodules hsubmodules happend (List.pairwise_append.1 hapart).2.2
  exact hjoins.agrees ((Agrees.refl base).addAll_perm hperm hapart)

end

end Store

namespace ModuleSet

variable {s t u : Store} {files : Files}

theorem part_gather (hperm : (gather u files).1.Perm ((gather s files).1 ++ (gather t files).1)) :
    (gather s files).1.Part (gather u files).1 where
  scope? := by
    intro name hsome
    obtain ⟨scope, hscope⟩ := Option.isSome_iff_exists.1 hsome
    obtain ⟨hmem, rfl⟩ := Scopes.scope?_spec hscope
    rw [hscope]
    apply Scopes.scope?_eq_some_of_mem (sound_gather u files).coherent.distinct
    exact hperm.mem_iff.2 (List.mem_append_left _ hmem)
  closed := by
    rintro context ⟨scope, hscope, hcontext⟩ prefixId name hname
    exact isSome_scope?_gather s files hscope hcontext hname

theorem halves_gather (hu : (gather s files).2.Unrelated (gather t files).2)
    (hperm : (gather u files).1.Perm ((gather s files).1 ++ (gather t files).1)) :
    Scopes.Halves (gather s files).1 (gather t files).1 (gather u files).1 where
  left := part_gather hperm
  right := part_gather (hperm.trans List.perm_append_comm)
  coherent := (sound_gather s files).coherent
  coherent' := (sound_gather t files).coherent
  apart := by
    intro name hsome
    obtain ⟨scope, hscope⟩ := Option.isSome_iff_exists.1 hsome
    obtain ⟨hmem, rfl⟩ := Scopes.scope?_spec hscope
    have hfirst := (sound_gather s files).first scope hmem
    cases hother : (gather t files).1.scope? scope.main.name with
    | none => rfl
    | some other =>
      obtain ⟨hmem', hname⟩ := Scopes.scope?_spec hother
      have hfirst' := (sound_gather t files).first other hmem'
      rw [hname, hu.modules _ (Option.isSome_of_eq_some hfirst)] at hfirst'
      cases hfirst'

theorem gather_joined (h : s.Joins t u) (hu : (gather s files).2.Unrelated (gather t files).2) :
    (gather u files).2.breakdown = none
      ∧ (gather u files).2.problems.Perm ((gather s files).2.problems ++ (gather t files).2.problems)
      ∧ Merged (gather s files).1 (gather t files).1 (gather u files).1 := by
  obtain ⟨hnone, hproblems, hscopes⟩ := Gathering.joins_all h hu
  refine ⟨hnone, hproblems, merged_mergeSort ?_ hscopes⟩
  have hdistinct := (sound_gather u files).coherent.distinct
  exact ((List.mergeSort_perm _ _).map _).nodup_iff.1 hdistinct

theorem process_of_running (h : (gather s files).2.breakdown = none) :
    process ⟨s, none⟩ files
      = (let r := (gather s files).1.forest
        let problems := (gather s files).2.problems ++ r.2.problems
        let journal := (gather s files).2.store.journal ++ r.2.notes ++ [.processed r.1.length problems.length]
        (.ok problems, ⟨{ (gather s files).2.store with journal := journal }, some ⟨problems, r.1⟩⟩)) := by
  rw [process_open, h]

theorem running_of_process {problems : List Diagnostic} (h : (process ⟨s, none⟩ files).1 = .ok problems) :
    (gather s files).2.breakdown = none := by
  rw [process_open] at h
  split at h
  · cases h
  · next hnone => exact hnone

theorem toEntry_eq_ok_iff (h : (gather s files).2.breakdown = none) {name : String} {tree : Entry} :
    (process ⟨s, none⟩ files).2.toEntry name = .ok tree
      ↔ tree ∈ (gather s files).1.forest.1 ∧ tree.name = name := by
  have hnodup : ((gather s files).1.forest.1.map Entry.name).Nodup := by
    rw [names_forest]
    exact (sound_gather s files).coherent.distinct
  rw [process_of_running h]
  unfold toEntry
  dsimp only
  constructor
  · intro hok
    split at hok
    · next found hfound =>
      cases hok
      exact Entry.named?_spec hfound
    · cases hok
  · rintro ⟨hmem, rfl⟩
    rw [Entry.named?_of_mem hnodup hmem]

/--
Two parts of a set that have nothing to do with each other never mask what is wrong with one another.
-/
theorem process_joined (h : s.Joins t u) {problems problems' : List Diagnostic}
    (hs : (process ⟨s, none⟩ files).1 = .ok problems) (ht : (process ⟨t, none⟩ files).1 = .ok problems')
    (hu : (process ⟨s, none⟩ files).2.store.Unrelated (process ⟨t, none⟩ files).2.store) :
    ∃ all, (process ⟨u, none⟩ files).1 = .ok all ∧ all.Perm (problems ++ problems')
      ∧ ∀ name tree, (process ⟨u, none⟩ files).2.toEntry name = .ok tree
        ↔ (process ⟨s, none⟩ files).2.toEntry name = .ok tree ∨ (process ⟨t, none⟩ files).2.toEntry name = .ok tree := by
  have hrunning := running_of_process hs
  have hrunning' := running_of_process ht
  rw [process_of_running hrunning] at hs hu
  rw [process_of_running hrunning'] at ht hu
  have hunrelated : (gather s files).2.Unrelated (gather t files).2 :=
    Store.Unrelated.gathering ⟨hu.modules, hu.submodules, hu.searched, hu.wanted, hu.wanted'⟩ hrunning hrunning'
  obtain ⟨hnone, hgathered, hmerged⟩ := gather_joined h hunrelated
  obtain ⟨htrees, hbuilt⟩ := Scopes.forest_joined (halves_gather hunrelated hmerged.perm) hmerged
  refine ⟨_, by rw [process_of_running hnone], ?_, ?_⟩
  · cases hs
    cases ht
    -- what was found while gathering comes before what was found in the trees
    apply (hgathered.append hbuilt).trans
    rw [List.append_assoc, List.append_assoc]
    apply List.Perm.append_left
    rw [← List.append_assoc, ← List.append_assoc]
    exact List.perm_append_comm.append_right _
  · intro name tree
    rw [toEntry_eq_ok_iff hnone, toEntry_eq_ok_iff hrunning, toEntry_eq_ok_iff hrunning', htrees.perm.mem_iff,
      List.mem_append, or_and_right]

def strayModule : Module :=
  plainModule [] [⟨"/p:c", none, []⟩]

def doubledModule : Module :=
  let leaf : Node := .leaf ⟨.free, "b", "string", none, none, false, none, none⟩
  ⟨"n", "w", ⟨"q", none, none, none, none, [], [], [], [], [leaf, leaf], [], "n.yaml"⟩⟩

theorem process_stray : (process ⟨(Store.empty []).addAll [.main strayModule], none⟩ .empty).1
    = .ok [⟨"m.yaml", .statement "module" "m" (.targetNotFound "/p:c")⟩] := by
  rw [process_open]
  rw [gather_alone (m := strayModule) rfl rfl rfl rfl rfl]
  cbv

theorem process_doubled : (process ⟨(Store.empty []).addAll [.main doubledModule], none⟩ .empty).1
    = .ok [⟨"n.yaml", .statement "module" "n" (.duplicateNode "b" "n")⟩] := by
  rw [process_open]
  rw [gather_alone (m := doubledModule) rfl rfl rfl rfl rfl]
  cbv

theorem not_wanted_of_alone {store : Store} {m : Module} (hmodules : store.modules = [m])
    (hsubmodules : store.submodules = []) (hincludes : m.body.includes = []) (himports : m.body.imports = [])
    (name : String) : ¬ store.Wanted name := by
  rintro ⟨d, hd, hwanted⟩
  cases d with
  | main n =>
    change n ∈ store.modules at hd
    rw [hmodules, List.mem_singleton] at hd
    subst hd
    rw [show (Document.main n).body = n.body from rfl, hincludes, himports] at hwanted
    rcases hwanted with hin | ⟨i, hi, _⟩
    · cases hin
    · cases hi
  | part a =>
    change a ∈ store.submodules at hd
    rw [hsubmodules] at hd
    cases hd

theorem process_joined_sample :
    let store : Store := .empty []
    let s := store.addAll [.main strayModule]
    let t := store.addAll [.main doubledModule]
    let u := store.addAll [.main doubledModule, .main strayModule]
    let problem : Diagnostic := ⟨"m.yaml", .statement "module" "m" (.targetNotFound "/p:c")⟩
    let problem' : Diagnostic := ⟨"n.yaml", .statement "module" "n" (.duplicateNode "b" "n")⟩
    s.Joins t u ∧ (process ⟨s, none⟩ .empty).1 = .ok [problem] ∧ (process ⟨t, none⟩ .empty).1 = .ok [problem']
      ∧ (process ⟨s, none⟩ .empty).2.store.Unrelated (process ⟨t, none⟩ .empty).2.store
      ∧ ∃ all, (process ⟨u, none⟩ .empty).1 = .ok all ∧ all.Perm ([problem] ++ [problem'])
        ∧ ∀ name tree, (process ⟨u, none⟩ .empty).2.toEntry name = .ok tree
          ↔ (process ⟨s, none⟩ .empty).2.toEntry name = .ok tree
            ∨ (process ⟨t, none⟩ .empty).2.toEntry name = .ok tree := by
  intro store s t u problem problem'
  have hjoins : s.Joins t u := by
    apply Store.joins_addAll_perm rfl rfl (.swap _ _ _)
    simp [Store.Apart, Document.word, Document.name, strayModule, plainModule, doubledModule]
  have hunrelated : (process ⟨s, none⟩ .empty).2.store.Unrelated (process ⟨t, none⟩ .empty).2.store := by
    rw [process_open, process_open]
    rw [gather_alone (m := strayModule) rfl rfl rfl rfl rfl, gather_alone (m := doubledModule) rfl rfl rfl rfl rfl]
    constructor
    · intro m hm n hn
      rw [List.mem_singleton.1 hm, List.mem_singleton.1 hn]
      decide
    · exact List.forall_mem_nil _
    · exact List.forall_mem_nil _
    · intro name hw
      exact absurd hw (not_wanted_of_alone (m := strayModule) rfl rfl rfl rfl name)
    · intro name hw
      exact absurd hw (not_wanted_of_alone (m := doubledModule) rfl rfl rfl rfl name)
  exact ⟨hjoins, process_stray, process_doubled, hunrelated,
    process_joined hjoins process_stray process_doubled hunrelated⟩

end ModuleSet

end Yang

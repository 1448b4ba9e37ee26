import Yang.Proofs.Gather.Alongside

/-!
This module contains the gathering of two parts together that have nothing to do with each other. Every scope that is
gathered is one of the first part or one of the second, so the gathering goes along with the gatherings of both, and what
it finds is what they find.
-/

namespace Yang

def Store.foreign (store : Store) : Foreign where
  modules := fun name => (store.module? name).isSome
  submodules := fun name => (store.submodule? name).isSome
  sites := fun site => store.searched.contains site

/--
Whether a store has what two other stores have: the first record of a name is the first one of its name in one of them.
-/
structure Store.Joins (s t u : Store) : Prop where
  searchPath : u.searchPath = s.searchPath
  searchPath' : u.searchPath = t.searchPath
  modules : ∀ name, u.module? name = (s.module? name).or (t.module? name)
  submodules : ∀ name, u.submodule? name = (s.submodule? name).or (t.submodule? name)
  searched : ∀ site, site ∈ u.searched ↔ site ∈ s.searched ∨ site ∈ t.searched

theorem or_comm_of_apart {α : Type} {o o' : Option α} (h : o.isSome = true → o' = none) : o.or o' = o'.or o := by
  cases o with
  | none => rw [Option.none_or, Option.or_none]
  | some a => rw [h rfl, Option.or_none, Option.none_or]

theorem Store.Joins.symm {s t u : Store} (h : s.Joins t u)
    (hmodules : ∀ name, (s.module? name).isSome = true → t.module? name = none)
    (hsubmodules : ∀ name, (s.submodule? name).isSome = true → t.submodule? name = none) : t.Joins s u where
  searchPath := h.searchPath'
  searchPath' := h.searchPath
  modules := fun name => by rw [h.modules name, or_comm_of_apart (hmodules name)]
  submodules := fun name => by rw [h.submodules name, or_comm_of_apart (hsubmodules name)]
  searched := fun site => by rw [h.searched site, or_comm]

namespace Gathering

structure Unrelated (g g' : Gathering) : Prop where
  modules : ∀ name, (g.store.module? name).isSome = true → g'.store.module? name = none
  submodules : ∀ name, (g.store.submodule? name).isSome = true → g'.store.submodule? name = none
  minds : Minds g'.store.foreign g
  minds' : Minds g.store.foreign g'

theorem eq_none_of_apart {α β : Type} {get : String → Option α} {get' : String → Option β}
    (h : ∀ name, (get name).isSome = true → get' name = none) (name : String) (hsome : (get' name).isSome = true) :
    get name = none := by
  cases hname : get name with
  | none => rfl
  | some _ =>
    rw [h name (Option.isSome_of_eq_some hname)] at hsome
    cases hsome

theorem Unrelated.symm {g g' : Gathering} (h : Unrelated g g') : Unrelated g' g where
  modules := eq_none_of_apart h.modules
  submodules := eq_none_of_apart h.submodules
  minds := h.minds'
  minds' := h.minds

structure Joining (final final' : Gathering) (p p' q : Stage) : Prop where
  left : Alongside final'.store.foreign p q
  right : Alongside final.store.foreign p' q
  running : q.gathering.breakdown = none
  problems : q.gathering.problems.Perm (p.gathering.problems ++ p'.gathering.problems)
  scopes : q.scopes.Perm (p.scopes ++ p'.scopes)

variable {files : Files} {final final' : Gathering} {p p' q : Stage} {scopes scopes' : Scopes} {main : Module}
  {rest : List String}

theorem Joining.symm (h : Joining final final' p p' q) : Joining final' final p' p q where
  left := h.right
  right := h.left
  running := h.running
  problems := h.problems.trans List.perm_append_comm
  scopes := h.scopes.trans List.perm_append_comm

theorem Gains.foreign {g g' : Gathering} {e : Effect} (hgains : Gains g e g') (hmore : Steps files g' final) :
    (∀ d ∈ e.documents, final.store.foreign.owns d = true) ∧ ∀ site ∈ e.sites, final.store.foreign.sites site = true := by
  constructor
  · intro d hd
    have hloaded := (Steps.extends hmore).loaded (hgains.store.loaded hd)
    cases d with
    | main m => exact Store.isSome_module?_iff.2 (List.mem_map_of_mem hloaded)
    | part s =>
      change (final.store.submodule? s.name).isSome = true
      unfold Store.submodule?
      rw [List.find?_isSome]
      exact ⟨s, hloaded, beq_self_eq_true _⟩
  · intro site hsite
    change final.store.searched.contains site = true
    rw [List.contains_eq_mem, decide_eq_true_eq]
    exact Steps.searched hmore ((hgains.store.searched site).2 (.inl hsite))

theorem Joining.after (h : Joining final final' p p' q) (hu : Unrelated final final')
    (hends : p.Ends files scopes final) (hnext : q.next = some (main, rest))
    (hmain : final'.store.foreign.modules main.name = false) :
    ∃ rest', p.next = some (main, rest')
      ∧ Joining final final' (p.after files main rest') p' (q.after files main rest) := by
  obtain ⟨rest', hnext', _⟩ := h.left.next_eq_some hnext hmain
  refine ⟨rest', hnext', ?_⟩
  have hmore := (hends.after hnext').steps
  -- nothing that the first part has at this point gets lost later on
  have hkept : ∀ name, ((p.after files main rest').store.module? name).isSome = true →
      final.store.foreign.modules name = true :=
    fun name hsome => get_of_steps hmore hsome
  have hin := (next_spec hnext').1
  have hbefore := Steps.minds hends.steps hu.minds
  obtain ⟨⟨e, hgains, hgains'⟩, hscope, hneeded⟩ :=
    beside_scope ⟨h.left.alike, hbefore.breakdown, h.running⟩ h.left.known hin hmain (Steps.minds hmore hu.minds)
  constructor
  · apply h.left.after hnext' hnext hmain hgains hgains' hneeded
    intro name hname
    cases hfound : (p.after files main rest').store.module? name with
    | none => rfl
    | some m =>
      have hnone := hu.modules name (hkept name (by rw [hfound]; rfl))
      change (final'.store.module? name).isSome = true at hname
      rw [hnone] at hname
      cases hname
  · apply h.right.stay hnext
    · apply hkept
      apply get_of_steps (steps_scope files p.done hin)
      exact Option.isSome_of_eq_some (next_first hnext')
    · obtain ⟨hdocuments, hsites⟩ := Gains.foreign hgains hmore
      exact h.right.alike.apart hgains'.store hdocuments hsites
    · intro name hname hforeign
      rw [hneeded] at hname
      rw [hkept name (needed_scope p.done hin name hname).2] at hforeign
      cases hforeign
  · exact hgains'.breakdown
  · have hproblems : (q.after files main rest).gathering.problems = q.gathering.problems ++ e.problems :=
      hgains'.problems
    have hproblems' : (p.after files main rest').gathering.problems = p.gathering.problems ++ e.problems :=
      hgains.problems
    rw [hproblems, hproblems', List.append_assoc]
    apply (h.problems.append_right _).trans
    rw [List.append_assoc]
    exact List.perm_append_comm.append_left _
  · unfold Stage.after
    dsimp only
    rw [hscope, List.append_assoc]
    apply (h.scopes.append_right _).trans
    rw [List.append_assoc]
    exact List.perm_append_comm.append_left _

theorem Joining.ends {all : Scopes} {g : Gathering} (hq : q.Ends files all g) (h : Joining final final' p p' q)
    (hu : Unrelated final final') (hends : p.Ends files scopes final) (hends' : p'.Ends files scopes' final') :
    g.breakdown = none ∧ g.problems.Perm (final.problems ++ final'.problems) ∧ all.Perm (scopes ++ scopes') := by
  unfold Stage.Ends at hq
  obtain ⟨scopes₀, needed₀, g₀⟩ := q
  dsimp only at hq
  induction hq generalizing p p' with
  | @done scopes₀ needed₀ g₀ hnone =>
    obtain ⟨rfl, rfl⟩ := hends.eq (h.left.next_eq_none hnone)
    obtain ⟨rfl, rfl⟩ := hends'.eq (h.right.next_eq_none hnone)
    exact ⟨h.running, h.problems, h.scopes⟩
  | @scope scopes₀ all needed₀ rest main g₀ g hnext _ ih =>
    cases hmain : final'.store.foreign.modules main.name with
    | false =>
      obtain ⟨rest', hnext', hafter⟩ := h.after hu hends hnext hmain
      exact ih (hends.after hnext') hends' hafter
    | true =>
      -- the two parts change their places
      have hmain' : final.store.foreign.modules main.name = false := by
        change (final.store.module? main.name).isSome = false
        rw [hu.symm.modules main.name hmain]
        rfl
      obtain ⟨rest', hnext', hafter⟩ := h.symm.after hu.symm hends' hnext hmain'
      exact ih hends (hends'.after hnext') hafter.symm

theorem matches_joins {s t u : Store} (h : s.Joins t u) {g : Gathering} (hsteps : Steps files ⟨t, [], none⟩ g) :
    s.Matches g.store.foreign u where
  searchPath := h.searchPath.symm
  modules := by
    intro name hname
    have hnone : t.module? name = none := by
      cases ht : t.module? name with
      | none => rfl
      | some m =>
        have hsome : g.store.foreign.modules name = true := Option.isSome_of_eq_some (hsteps.extends.module? ht)
        rw [hname] at hsome
        cases hsome
    rw [h.modules name, hnone, Option.or_none]
  submodules := by
    intro name hname
    have hnone : t.submodule? name = none := by
      cases ht : t.submodule? name with
      | none => rfl
      | some m =>
        have hsome : g.store.foreign.submodules name = true := Option.isSome_of_eq_some (hsteps.extends.submodule? ht)
        rw [hname] at hsome
        cases hsome
    rw [h.submodules name, hnone, Option.or_none]
  searched := by
    intro site hsite
    rw [h.searched site, or_iff_left]
    intro hin
    have hlater : g.store.foreign.sites site = true := by
      change g.store.searched.contains site = true
      rw [List.contains_eq_mem, decide_eq_true_eq]
      exact hsteps.searched hin
    rw [hsite] at hlater
    cases hlater

theorem joins_all {s t u : Store} (h : s.Joins t u)
    (hu : Unrelated (all files [] [] ⟨s, [], none⟩).2 (all files [] [] ⟨t, [], none⟩).2) :
    (all files [] [] ⟨u, [], none⟩).2.breakdown = none
      ∧ (all files [] [] ⟨u, [], none⟩).2.problems.Perm
        ((all files [] [] ⟨s, [], none⟩).2.problems ++ (all files [] [] ⟨t, [], none⟩).2.problems)
      ∧ (all files [] [] ⟨u, [], none⟩).1.Perm
        ((all files [] [] ⟨s, [], none⟩).1 ++ (all files [] [] ⟨t, [], none⟩).1) := by
  have hsteps := (runs_all files [] [] ⟨s, [], none⟩).steps
  have hsteps' := (runs_all files [] [] ⟨t, [], none⟩).steps
  -- what the parts have in the end is apart, and so is what they have in the beginning
  have hown : ∀ name, ((all files [] [] ⟨t, [], none⟩).2.store.module? name).isSome = true → s.module? name = none :=
    eq_none_of_apart fun name hsome => hu.modules name (get_of_steps hsteps hsome)
  have hown' : ∀ name, ((all files [] [] ⟨s, [], none⟩).2.store.module? name).isSome = true → t.module? name = none :=
    eq_none_of_apart fun name hsome => hu.symm.modules name (get_of_steps hsteps' hsome)
  have hmodules : ∀ name, (s.module? name).isSome = true → t.module? name = none :=
    fun name hsome => hown' name (get_of_steps hsteps hsome)
  have hsubmodules : ∀ name, (s.submodule? name).isSome = true → t.submodule? name = none := by
    intro name hsome
    obtain ⟨part, hpart⟩ := Option.isSome_iff_exists.1 hsome
    cases ht : t.submodule? name with
    | none => rfl
    | some m =>
      have hnone := hu.submodules name (Option.isSome_of_eq_some (hsteps.extends.submodule? hpart))
      rw [hsteps'.extends.submodule? ht] at hnone
      cases hnone
  have hjoining : Joining (all files [] [] ⟨s, [], none⟩).2 (all files [] [] ⟨t, [], none⟩).2 (.begin s) (.begin t)
      (.begin u) := by
    constructor
    · exact .begin (matches_joins h hsteps') hown
    · exact .begin (matches_joins (h.symm hmodules hsubmodules) hsteps) hown'
    · rfl
    · exact .nil
    · exact .nil
  exact hjoining.ends (Stage.ends_begin files u) hu (Stage.ends_begin files s) (Stage.ends_begin files t)

end Gathering

end Yang

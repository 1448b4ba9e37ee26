import Yang.Proofs.Gather.Beside
import Yang.Proofs.Gather.Queue

/-!
This module contains gatherings that go along with each other. One of them also has to do with what is foreign to the
other. Between two foreign modules it turns to the same modules as the other, in the same order, so that both come to
the same scopes.
-/

namespace Yang.Gathering

structure Stage where
  scopes : Scopes
  needed : List String
  gathering : Gathering

namespace Stage

def store (p : Stage) : Store :=
  p.gathering.store

def done (p : Stage) : List String :=
  scopedNames p.scopes

def waiting (p : Stage) : List String :=
  fresh p.done p.needed

def coming (p : Stage) : List String :=
  fresh p.done (batch p.store p.scopes p.needed)

def next (p : Stage) : Option (Module × List String) :=
  Gathering.next p.store p.scopes p.needed

def after (files : Files) (p : Stage) (main : Module) (rest : List String) : Stage :=
  let r := scope files p.done main p.gathering
  ⟨p.scopes ++ [r.1], rest ++ r.2.1, r.2.2⟩

def Ends (files : Files) (p : Stage) (final : Scopes) (g : Gathering) : Prop :=
  Runs files p.scopes p.needed p.gathering final g

variable {files : Files} {p : Stage} {main : Module} {rest : List String} {final : Scopes} {g : Gathering}

theorem Ends.eq (h : p.Ends files final g) (hnext : p.next = none) : final = p.scopes ∧ g = p.gathering := by
  unfold Ends at h
  cases h with
  | done => exact ⟨rfl, rfl⟩
  | scope hsome _ =>
    unfold Stage.next store at hnext
    rw [hnext] at hsome
    cases hsome

theorem Ends.after (h : p.Ends files final g) (hnext : p.next = some (main, rest)) :
    (p.after files main rest).Ends files final g := by
  unfold Ends at h
  unfold Stage.next store at hnext
  cases h with
  | done hnone =>
    rw [hnext] at hnone
    cases hnone
  | scope hsome more =>
    rw [hnext] at hsome
    cases hsome
    exact more

theorem done_after (files : Files) (p : Stage) (main : Module) (rest : List String) :
    (p.after files main rest).done = p.done ++ [main.name] := by
  unfold Stage.after done scopedNames
  rw [List.map_append]
  rfl

end Stage

structure Alongside (f : Foreign) (p p' : Stage) : Prop where
  alike : p.store.Matches f p'.store
  own : ∀ name, f.modules name = true → p.store.module? name = none
  known : ∀ name, f.modules name = false → (name ∈ p.done ↔ name ∈ p'.done)
  found : ∀ name ∈ p.needed, (p.store.module? name).isSome = true
  found' : ∀ name ∈ p'.needed, (p'.store.module? name).isSome = true
  -- the other gathering may take all names anew while this one has come to the end of its own
  queue : p'.waiting.filter (fun name => !f.modules name) = p.waiting
    ∨ p.waiting = []
      ∧ p'.waiting.filter (fun name => !f.modules name) = fresh p.done (p.store.topLevel.map Module.name)

variable {f : Foreign} {files : Files} {p p' : Stage} {main : Module} {rest rest' : List String}

theorem fresh_concat (done : List String) (name : String) (names : List String) :
    fresh (done ++ [name]) names = fresh (name :: done) names := by
  apply fresh_congr
  intro other _
  rw [List.mem_append, List.mem_singleton, List.mem_cons, or_comm]

theorem not_modules_iff {name : String} : (!f.modules name) = true ↔ f.modules name = false := by
  rw [Bool.not_eq_true']

theorem found_after (hfound : ∀ name ∈ p.needed, (p.store.module? name).isSome = true)
    (hnext : p.next = some (main, rest)) :
    ∀ name ∈ (p.after files main rest).needed, ((p.after files main rest).store.module? name).isSome = true := by
  have hmain := (next_spec hnext).1
  intro name hname
  rcases List.mem_append.1 hname with hname | hname
  · apply get_of_steps (steps_scope files p.done hmain)
    exact found_batch hfound name ((taken_of_next hfound hnext).left name hname)
  · exact (needed_scope p.done hmain name hname).2

theorem foreign_of_isSome {store : Store} (hown : ∀ name, f.modules name = true → store.module? name = none)
    {name : String} (hsome : (store.module? name).isSome = true) : f.modules name = false := by
  cases hname : f.modules name with
  | false => rfl
  | true =>
    rw [hown name hname] at hsome
    cases hsome

theorem topLevel_matches {a b : Store} (h : a.Matches f b)
    (hown : ∀ name, f.modules name = true → a.module? name = none) :
    (b.topLevel.map Module.name).filter (fun name => !f.modules name) = a.topLevel.map Module.name := by
  apply Text.eq_of_pairwise_lt
  · exact b.pairwise_topLevel.filter _
  · exact a.pairwise_topLevel
  · intro name
    rw [List.mem_filter, Store.mem_names_topLevel_iff, Store.mem_names_topLevel_iff, not_modules_iff]
    constructor
    · rintro ⟨hsome, hname⟩
      rw [h.modules name hname]
      exact hsome
    · intro hsome
      have hname := foreign_of_isSome hown hsome
      rw [← h.modules name hname]
      exact ⟨hsome, hname⟩

def Stage.begin (store : Store) : Stage :=
  ⟨[], store.topLevel.map Module.name, ⟨store, [], none⟩⟩

theorem Stage.ends_begin (files : Files) (store : Store) :
    (Stage.begin store).Ends files (all files [] [] ⟨store, [], none⟩).1 (all files [] [] ⟨store, [], none⟩).2 := by
  have hruns := runs_all files [] (store.topLevel.map Module.name) ⟨store, [], none⟩
  rw [(runs_of_topLevel hruns).all_eq]
  exact hruns

namespace Alongside

theorem begin {a b : Store} (h : a.Matches f b) (hown : ∀ name, f.modules name = true → a.module? name = none) :
    Alongside f (.begin a) (.begin b) where
  alike := h
  own := hown
  known := fun _ _ => Iff.rfl
  found := fun _ hname => Store.mem_names_topLevel_iff.1 hname
  found' := fun _ hname => Store.mem_names_topLevel_iff.1 hname
  queue := by
    left
    unfold Stage.waiting
    rw [filter_fresh]
    exact congrArg (fresh []) (topLevel_matches h hown)

theorem coming (h : Alongside f p p') :
    p'.coming.filter (fun name => !f.modules name) = p.coming
      ∨ p.waiting = [] ∧ p'.coming.filter (fun name => !f.modules name) = [] ∧ p'.coming ≠ [] := by
  have hqueue := h.queue
  unfold Stage.waiting at hqueue ⊢
  unfold Stage.coming
  by_cases hempty' : fresh p'.done p'.needed = []
  · have hempty : fresh p.done p.needed = [] := by
      rcases hqueue with hqueue | ⟨hnil, _⟩
      · rw [← hqueue, hempty', List.filter_nil]
      · exact hnil
    left
    rw [fresh_batch_of_eq_nil hempty', fresh_batch_of_eq_nil hempty, filter_fresh,
      topLevel_matches h.alike h.own]
    apply fresh_congr
    intro name hname
    exact (h.known name (foreign_of_isSome h.own (Store.mem_names_topLevel_iff.1 hname))).symm
  · rw [fresh_batch_of_ne_nil hempty']
    rcases hqueue with hqueue | ⟨hnil, hqueue⟩
    · by_cases hempty : fresh p.done p.needed = []
      · exact .inr ⟨hempty, hqueue.trans hempty, hempty'⟩
      · left
        rw [fresh_batch_of_ne_nil hempty]
        exact hqueue
    · left
      rw [fresh_batch_of_eq_nil hnil]
      exact hqueue

theorem next_eq_some (h : Alongside f p p') (hnext' : p'.next = some (main, rest'))
    (hmain : f.modules main.name = false) :
    ∃ rest, p.next = some (main, rest)
      ∧ (fresh (main.name :: p'.done) rest').filter (fun name => !f.modules name) = fresh (main.name :: p.done) rest := by
  have htaken' := taken_of_next h.found' hnext'
  -- the first name that waits in the other gathering waits here too
  have hcoming : main.name :: (fresh (main.name :: p'.done) rest').filter (fun name => !f.modules name) = p.coming := by
    have hcoming := h.coming
    unfold Stage.coming Stage.done at hcoming
    rw [htaken'.fresh, List.filter_cons, if_pos (not_modules_iff.2 hmain)] at hcoming
    rcases hcoming with heq | ⟨_, hnil, _⟩
    · exact heq
    · cases hnil
  obtain ⟨main', rest, hnext, hname, htaken⟩ := next_of_fresh_eq_cons h.found hcoming.symm
  have hsame : main' = main := by
    have hfirst := htaken.first
    rw [hname] at hfirst
    have hfirst' := h.alike.modules main.name hmain
    unfold Stage.store at hfirst hfirst'
    rw [hfirst] at hfirst'
    exact Option.some.inj (hfirst'.trans htaken'.first)
  subst hsame
  refine ⟨rest, hnext, ?_⟩
  unfold Stage.coming Stage.done at hcoming
  rw [htaken.fresh] at hcoming
  exact List.tail_eq_of_cons_eq hcoming

theorem after (h : Alongside f p p') (hnext : p.next = some (main, rest)) (hnext' : p'.next = some (main, rest'))
    (hmain : f.modules main.name = false) {e : Effect}
    (hgains : Gains p.gathering e (p.after files main rest).gathering)
    (hgains' : Gains p'.gathering e (p'.after files main rest').gathering)
    (hneeded : (scope files p'.done main p'.gathering).2.1 = (scope files p.done main p.gathering).2.1)
    (hown : ∀ name, f.modules name = true → (p.after files main rest).store.module? name = none) :
    Alongside f (p.after files main rest) (p'.after files main rest') := by
  obtain ⟨rest₁, hnext₁, hrest⟩ := h.next_eq_some hnext' hmain
  rw [hnext] at hnext₁
  cases hnext₁
  have hfound := @found_after files p main rest h.found hnext
  have hhome : ∀ name ∈ (scope files p.done main p.gathering).2.1, f.modules name = false :=
    fun name hname => foreign_of_isSome hown (hfound name (List.mem_append_right _ hname))
  refine ⟨h.alike.takes hgains.store hgains'.store, hown, ?_, hfound, found_after h.found' hnext', .inl ?_⟩
  · intro name hname
    rw [Stage.done_after, Stage.done_after, List.mem_append, List.mem_append, h.known name hname]
  · unfold Stage.waiting
    rw [Stage.done_after, Stage.done_after, fresh_concat, fresh_concat]
    unfold Stage.after
    dsimp only
    rw [fresh_append, fresh_append, List.filter_append, hrest, hneeded]
    congr 1
    rw [filter_fresh, List.filter_eq_self.2 fun name hname => not_modules_iff.2 (hhome name hname)]
    apply fresh_congr
    intro name hname
    have hhome := hhome name hname
    -- what is no longer behind the module in one of the queues is done in both
    have hwaits : name ∈ rest' ∧ name ∉ main.name :: p'.done ↔ name ∈ rest ∧ name ∉ main.name :: p.done := by
      rw [← mem_fresh_iff, ← mem_fresh_iff, ← hrest, List.mem_filter, not_modules_iff]
      exact (and_iff_left hhome).symm
    have hdone : name ∈ main.name :: p'.done ↔ name ∈ main.name :: p.done := by
      rw [List.mem_cons, List.mem_cons, h.known name hhome]
    rw [hdone] at hwaits
    rw [List.mem_append, List.mem_append, hdone]
    tauto

theorem stay (h : Alongside f p p') (hnext' : p'.next = some (main, rest')) (hmain : f.modules main.name = true)
    (halike : p.store.Matches f (p'.after files main rest').store)
    (hmore : ∀ name ∈ (scope files p'.done main p'.gathering).2.1, f.modules name = false →
      name ∈ p'.done ∨ name ∈ rest') :
    Alongside f p (p'.after files main rest') := by
  have htaken' := taken_of_next h.found' hnext'
  have hwaiting : (p'.after files main rest').waiting.filter (fun name => !f.modules name)
      = p'.coming.filter (fun name => !f.modules name) := by
    unfold Stage.waiting Stage.coming
    rw [Stage.done_after, fresh_concat]
    unfold Stage.after Stage.done
    dsimp only
    rw [htaken'.fresh, List.filter_cons, if_neg (by rw [hmain]; exact Bool.false_ne_true)]
    rw [fresh_append, List.filter_append, List.append_right_eq_self, filter_fresh, fresh_eq_nil_iff]
    intro name hname
    obtain ⟨hname, hhome⟩ := List.mem_filter.1 hname
    rw [List.mem_append, List.mem_cons]
    rcases hmore name hname (not_modules_iff.1 hhome) with hin | hin
    · exact .inr (.inr hin)
    · exact .inl hin
  refine ⟨halike, h.own, ?_, h.found, found_after h.found' hnext', ?_⟩
  · intro name hhome
    rw [Stage.done_after, List.mem_append, List.mem_singleton, h.known name hhome, or_iff_left]
    rintro rfl
    rw [hmain] at hhome
    cases hhome
  · rw [hwaiting]
    by_cases hempty : p.waiting = []
    · rcases h.coming with hcoming | ⟨_, hnil, _⟩
      · right
        rw [hcoming]
        unfold Stage.coming
        rw [fresh_batch_of_eq_nil hempty]
        exact ⟨hempty, rfl⟩
      · left
        rw [hnil, hempty]
    · rcases h.coming with hcoming | ⟨hnil, _, _⟩
      · left
        rw [hcoming]
        unfold Stage.coming
        rw [fresh_batch_of_ne_nil hempty]
        rfl
      · exact absurd hnil hempty

theorem next_eq_none (h : Alongside f p p') (hnone : p'.next = none) : p.next = none := by
  have hempty' : p'.coming = [] := fresh_of_next_eq_none h.found' hnone
  apply next_of_fresh_eq_nil h.found
  rcases h.coming with hcoming | ⟨_, _, hsome⟩
  · rw [hempty', List.filter_nil] at hcoming
    exact hcoming.symm
  · exact absurd hempty' hsome

end Alongside

end Yang.Gathering

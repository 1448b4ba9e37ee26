import Yang.Proofs.Merged
import Yang.Proofs.Tree.Confluence
import Yang.Proofs.Tree.Part

/-!
This module contains the trees of two parts that are built together. The modules of the two parts take turns, and so do
their augments, but nothing that is done for one part changes anything for the other one: not the trees, not what is
known of derived types, and not which augments wait.
-/

namespace Yang

structure Scopes.Halves (part other whole : Scopes) : Prop where
  left : part.Part whole
  right : other.Part whole
  coherent : part.Coherent
  coherent' : other.Coherent
  apart : ∀ name, (part.scope? name).isSome = true → other.scope? name = none

structure Work.Joins (part other : Scopes) (w v u : Work) : Prop where
  left : w.Agrees part u
  right : v.Agrees other u
  problems : u.problems.Perm (w.problems ++ v.problems)

structure Forest.Joins (part other : Scopes) (forest forest' all : Forest) : Prop where
  merged : Merged forest forest' all
  left : ∀ tree ∈ forest, (part.scope? tree.name).isSome = true
  right : ∀ tree ∈ forest', (other.scope? tree.name).isSome = true

variable {part other whole : Scopes} {w v u w' u' : Work} {forest forest' all : Forest}

theorem Scopes.Halves.symm (h : Scopes.Halves part other whole) : Scopes.Halves other part whole where
  left := h.right
  right := h.left
  coherent := h.coherent'
  coherent' := h.coherent
  apart := by
    intro name hsome
    cases hscope : part.scope? name with
    | none => rfl
    | some scope =>
      rw [h.apart name (Option.isSome_of_eq_some hscope)] at hsome
      cases hsome

namespace Work

theorem joins_empty (part other : Scopes) : Joins part other .empty .empty .empty where
  left := fun _ _ => rfl
  right := fun _ _ => rfl
  problems := .nil

theorem Joins.symm (h : Joins part other w v u) : Joins other part v w u where
  left := h.right
  right := h.left
  problems := h.problems.trans List.perm_append_comm

theorem Joins.together (hh : Scopes.Halves part other whole) (h : Joins part other w v u)
    (ht : Together part w u w' u') : Joins part other w' v u' where
  left := h.left.together ht
  right := by
    obtain ⟨_, types, _, hu, hown⟩ := ht
    intro key hkey
    have hnone : types.lookup key = none := by
      rw [List.lookup_eq_none_iff]
      intro p hp
      rw [bne_iff_ne]
      rintro rfl
      have hnot := hh.apart _ (hown p hp)
      rw [hnot] at hkey
      cases hkey
    rw [hu.lookup, hnone, Option.or_none]
    exact h.right key hkey
  problems := by
    obtain ⟨problems, _, hw, hu, _⟩ := ht
    rw [hu.problems, hw.problems, List.append_assoc]
    apply (h.problems.append_right problems).trans
    rw [List.append_assoc]
    exact List.perm_append_comm.append_left _

end Work

namespace Forest

theorem Joins.symm (h : Joins part other forest forest' all) : Joins other part forest' forest all where
  merged := h.merged.symm
  left := h.right
  right := h.left

theorem Joins.named? (hh : Scopes.Halves part other whole) (h : Joins part other forest forest' all) {name : String}
    (hname : (part.scope? name).isSome = true) : Entry.named? name all = Entry.named? name forest := by
  have hnone : Entry.named? name forest' = none := by
    rw [Entry.named?_eq_none_iff]
    intro hin
    obtain ⟨tree, htree, rfl⟩ := List.mem_map.1 hin
    have hsome := h.right tree htree
    rw [hh.apart _ hname] at hsome
    cases hsome
  unfold Entry.named? at hnone ⊢
  rw [h.merged.find?_eq_or fun _ _ _ tree htree => by simpa using List.find?_eq_none.1 hnone tree htree, hnone,
    Option.or_none]

end Forest

theorem Merged.regrowIn (h : Merged forest forest' all) {name : String} (hnot : ∀ tree ∈ forest', tree.name ≠ name)
    (grown : List Entry) (names : List String) :
    Merged (Entry.regrowIn grown name names forest) forest' (Entry.regrowIn grown name names all) := by
  induction h with
  | nil => exact .nil
  | left tree h ih =>
    rw [Entry.regrowIn.eq_def _ _ _ (tree :: _), Entry.regrowIn.eq_def _ _ _ (tree :: _)]
    dsimp only
    split
    · exact .left _ h
    · exact .left _ (ih hnot)
  | right tree _ ih =>
    rw [List.forall_mem_cons] at hnot
    rw [Entry.regrowIn.eq_def _ _ _ (tree :: _)]
    dsimp only
    rw [if_neg hnot.1]
    exact .right _ (ih hnot.2)

namespace Scopes

theorem buildAll_cons (scopes : Scopes) {scope : Scope} {rest : List Scope}
    (isThere : ∀ s ∈ scope :: rest, s ∈ scopes) (w : Work) :
    scopes.buildAll (scope :: rest) isThere w
      = (let built := scopes.build scope (isThere scope List.mem_cons_self) w
        let more := scopes.buildAll rest (fun s h => isThere s (List.mem_cons_of_mem _ h)) built.2
        (built.1 :: more.1, more.2)) := rfl

section

variable (hh : Halves part other whole)

include hh

theorem buildAll_joined {list list' listed : List Scope} (hlist : Merged list list' listed)
    (isThere : ∀ scope ∈ list, scope ∈ part) (isThere' : ∀ scope ∈ list', scope ∈ other)
    (isThere'' : ∀ scope ∈ listed, scope ∈ whole) {w v u : Work} (hw : w.Joins part other v u) :
    Forest.Joins part other (part.buildAll list isThere w).1 (other.buildAll list' isThere' v).1
        (whole.buildAll listed isThere'' u).1
      ∧ Work.Joins part other (part.buildAll list isThere w).2 (other.buildAll list' isThere' v).2
        (whole.buildAll listed isThere'' u).2 := by
  induction hlist generalizing w v u with
  | nil => exact ⟨⟨.nil, List.forall_mem_nil _, List.forall_mem_nil _⟩, hw⟩
  | left scope _ ih =>
    rw [buildAll_cons part, buildAll_cons whole]
    dsimp only
    have hscope := isThere scope List.mem_cons_self
    obtain ⟨hsame, htogether⟩ :=
      build_part hh.left hh.coherent hscope (isThere'' scope List.mem_cons_self) hw.left
    rw [hsame]
    obtain ⟨htrees, hworks⟩ := ih (fun s hs => isThere s (List.mem_cons_of_mem _ hs)) isThere'
      (fun s hs => isThere'' s (List.mem_cons_of_mem _ hs)) (hw.together hh htogether)
    refine ⟨⟨.left _ htrees.merged, List.forall_mem_cons.2 ⟨?_, htrees.left⟩, htrees.right⟩, hworks⟩
    exact Option.isSome_of_eq_some (scope?_eq_some_of_mem hh.coherent.distinct hscope)
  | right scope _ ih =>
    rw [buildAll_cons other, buildAll_cons whole]
    dsimp only
    have hscope := isThere' scope List.mem_cons_self
    obtain ⟨hsame, htogether⟩ :=
      build_part hh.right hh.coherent' hscope (isThere'' scope List.mem_cons_self) hw.right
    rw [hsame]
    obtain ⟨htrees, hworks⟩ := ih isThere (fun s hs => isThere' s (List.mem_cons_of_mem _ hs))
      (fun s hs => isThere'' s (List.mem_cons_of_mem _ hs)) (hw.symm.together hh.symm htogether).symm
    refine ⟨⟨.right _ htrees.merged, htrees.left, List.forall_mem_cons.2 ⟨?_, htrees.right⟩⟩, hworks⟩
    exact Option.isSome_of_eq_some (scope?_eq_some_of_mem hh.coherent'.distinct hscope)

end

def attempt (scopes : Scopes) (graft : Graft) (forest : Forest) (w : Work) : List Graft × Forest × Work :=
  match scopes.target forest graft with
  | .error finding => ([], forest, w.report graft.context finding)
  | .ok none => ([graft], forest, w)
  | .ok (some (entry, target)) => ([], scopes.apply forest graft entry target w)

theorem round_cons (scopes : Scopes) (graft : Graft) (rest : List Graft) (forest : Forest) (w : Work) :
    scopes.round (graft :: rest) forest w
      = (let first := scopes.attempt graft forest w
        let more := scopes.round rest first.2.1 first.2.2
        (first.1 ++ more.1, more.2)) := by
  unfold attempt
  rw [round]
  cases scopes.target forest graft with
  | error finding => rfl
  | ok found =>
    cases found with
    | none => rfl
    | some found => rfl

theorem graftAll_round (scopes : Scopes) (grafts : List Graft) (forest : Forest) (w : Work) :
    scopes.graftAll grafts forest w
      = (let r := scopes.round grafts forest w
        scopes.graftAll r.1 r.2.1 r.2.2) := by
  by_cases hlt : (scopes.round grafts forest w).1.length < grafts.length
  · rw [graftAll.eq_1 _ grafts, if_pos hlt]
  · rw [(round_of_length_eq (Nat.le_of_not_lt hlt)).1]

structure Grafting (part other : Scopes) (r r' r'' : List Graft × Forest × Work) : Prop where
  merged : Merged r.1 r'.1 r''.1
  left : ∀ graft ∈ r.1, part.Shows graft.context
  right : ∀ graft ∈ r'.1, other.Shows graft.context
  forest : Forest.Joins part other r.2.1 r'.2.1 r''.2.1
  work : Work.Joins part other r.2.2 r'.2.2 r''.2.2

section

variable (hh : Halves part other whole)

include hh

theorem apply_joined {graft : Graft} (hshows : part.Shows graft.context) {entry : Entry} {target : Target}
    (htarget : (part.scope? target.module).isSome = true) (hforest : Forest.Joins part other forest forest' all)
    (hwork : w.Joins part other v u) :
    Forest.Joins part other (part.apply forest graft entry target w).1 forest'
        (whole.apply all graft entry target u).1
      ∧ Work.Joins part other (part.apply forest graft entry target w).2 v (whole.apply all graft entry target u).2 := by
  have hspot : spotOf all target = spotOf forest target := by
    unfold spotOf
    rw [hforest.named? hh htarget]
  rw [apply_eq, apply_eq, hspot, ownerOf_part hh.left hshows hh.coherent]
  dsimp only
  have hnote := Work.Together.note part w u (.augmenting graft.augment.target graft.context.document.name)
    (.augmenting graft.augment.target graft.context.document.name)
  obtain ⟨hsame, htogether⟩ := addNodes_part hh.left hh.coherent hshows (hwork.left.together hnote) []
    (spotOf forest target) (part.ownerOf graft) graft.augment.nodes entry.children
  rw [hsame]
  refine ⟨⟨hforest.merged.regrowIn ?_ _ _, ?_, hforest.right⟩, hwork.together hh (hnote.trans htogether)⟩
  · rintro tree htree heq
    have hsome := hforest.right tree htree
    rw [heq, hh.apart _ htarget] at hsome
    cases hsome
  · intro tree htree
    obtain ⟨tree', htree', heq⟩ := exists_mem_of_map_eq (Entry.heads_regrowIn _ _ _ _) htree
    have hname : tree.name = tree'.name := congrArg EntryHead.name heq.symm
    rw [hname]
    exact hforest.left tree' htree'

theorem attempt_joined {graft : Graft} (hshows : part.Shows graft.context)
    (hforest : Forest.Joins part other forest forest' all) (hwork : w.Joins part other v u) :
    (whole.attempt graft all u).1 = (part.attempt graft forest w).1
      ∧ (∀ waiting ∈ (part.attempt graft forest w).1, waiting = graft)
      ∧ Forest.Joins part other (part.attempt graft forest w).2.1 forest' (whole.attempt graft all u).2.1
      ∧ Work.Joins part other (part.attempt graft forest w).2.2 v (whole.attempt graft all u).2.2 := by
  unfold attempt
  rw [target_part hh.left hshows fun name hname => hforest.named? hh hname]
  split
  · exact ⟨rfl, List.forall_mem_nil _, hforest, hwork.together hh (.report part w u _ _)⟩
  · exact ⟨rfl, List.forall_mem_singleton.2 rfl, hforest, hwork⟩
  · next entry target htarget =>
    have hmodule := isSome_scope?_of_target hh.left hshows htarget
    obtain ⟨hforest', hwork'⟩ := apply_joined hh hshows hmodule hforest hwork
    exact ⟨rfl, List.forall_mem_nil _, hforest', hwork'⟩

theorem round_joined {grafts grafts' listed : List Graft} (hlist : Merged grafts grafts' listed)
    (hshows : ∀ graft ∈ grafts, part.Shows graft.context) (hshows' : ∀ graft ∈ grafts', other.Shows graft.context)
    (hforest : Forest.Joins part other forest forest' all) (hwork : w.Joins part other v u) :
    Grafting part other (part.round grafts forest w) (other.round grafts' forest' v) (whole.round listed all u) := by
  induction hlist generalizing forest forest' all w v u with
  | nil => exact ⟨.nil, List.forall_mem_nil _, List.forall_mem_nil _, hforest, hwork⟩
  | left graft _ ih =>
    rw [List.forall_mem_cons] at hshows
    obtain ⟨hsame, hwaits, hforest, hwork⟩ := attempt_joined hh hshows.1 hforest hwork
    have hrest := ih hshows.2 hshows' hforest hwork
    rw [round_cons part, round_cons whole]
    dsimp only
    rw [hsame]
    refine ⟨(merged_left _).append hrest.merged, List.forall_mem_append.2 ⟨?_, hrest.left⟩, hrest.right, hrest.forest,
      hrest.work⟩
    intro waiting hwaiting
    rw [hwaits waiting hwaiting]
    exact hshows.1
  | right graft _ ih =>
    rw [List.forall_mem_cons] at hshows'
    obtain ⟨hsame, hwaits, hforest, hwork⟩ := attempt_joined hh.symm hshows'.1 hforest.symm hwork.symm
    have hrest := ih hshows hshows'.2 hforest.symm hwork.symm
    rw [round_cons other, round_cons whole]
    dsimp only
    rw [hsame]
    refine ⟨(merged_left _).symm.append hrest.merged, hrest.left, List.forall_mem_append.2 ⟨?_, hrest.right⟩,
      hrest.forest, hrest.work⟩
    intro waiting hwaiting
    rw [hwaits waiting hwaiting]
    exact hshows'.1

theorem reportWaiting_joined {grafts grafts' listed : List Graft} (hlist : Merged grafts grafts' listed)
    (hwork : w.Joins part other v u) :
    (reportWaiting grafts w).Joins part other (reportWaiting grafts' v) (reportWaiting listed u) := by
  induction hlist generalizing w v u with
  | nil => exact hwork
  | left graft _ ih => exact ih (hwork.together hh (.report part w u _ _))
  | right graft _ ih => exact ih (hwork.symm.together hh.symm (.report other v u _ _)).symm

theorem graftAll_joined {grafts grafts' listed : List Graft} (hlist : Merged grafts grafts' listed)
    (hshows : ∀ graft ∈ grafts, part.Shows graft.context) (hshows' : ∀ graft ∈ grafts', other.Shows graft.context)
    (hforest : Forest.Joins part other forest forest' all) (hwork : w.Joins part other v u) :
    Forest.Joins part other (part.graftAll grafts forest w).1 (other.graftAll grafts' forest' v).1
        (whole.graftAll listed all u).1
      ∧ Work.Joins part other (part.graftAll grafts forest w).2 (other.graftAll grafts' forest' v).2
        (whole.graftAll listed all u).2 := by
  induction hn : listed.length using Nat.strongRecOn generalizing grafts grafts' listed forest forest' all w v u with
  | ind n ih =>
    have hround := round_joined hh hlist hshows hshows' hforest hwork
    by_cases hlt : (whole.round listed all u).1.length < listed.length
    · rw [graftAll_round part, graftAll_round other, graftAll_round whole]
      rw [hn] at hlt
      exact ih _ hlt hround.merged hround.left hround.right hround.forest hround.work rfl
    · -- neither part has come any further
      have hle := part.length_round_le grafts forest w
      have hle' := other.length_round_le grafts' forest' v
      have hlength := hround.merged.perm.length_eq
      have hlength' := hlist.perm.length_eq
      rw [List.length_append] at hlength hlength'
      rw [graftAll.eq_1 part, graftAll.eq_1 other, graftAll.eq_1 whole, if_neg hlt, if_neg (by omega),
        if_neg (by omega)]
      exact ⟨hround.forest, reportWaiting_joined hh hround.merged hround.work⟩

theorem forest_joined (hmerged : Merged part other whole) :
    Merged part.forest.1 other.forest.1 whole.forest.1
      ∧ whole.forest.2.problems.Perm (part.forest.2.problems ++ other.forest.2.problems) := by
  obtain ⟨htrees, hworks⟩ := buildAll_joined hh hmerged (fun _ h => h) (fun _ h => h) (fun _ h => h)
    (Work.joins_empty part other)
  obtain ⟨hforest, hwork⟩ := graftAll_joined hh (hmerged.flatMap _) (fun _ h => shows_of_mem_grafts h)
    (fun _ h => shows_of_mem_grafts h) htrees hworks
  exact ⟨hforest.merged, hwork.problems⟩

end

end Scopes

end Yang

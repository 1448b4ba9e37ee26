import Mathlib.Data.List.Perm.Basic
import Yang.Proofs.Entry.Gains
import Yang.Proofs.Tree.Confluence

/-!
This module contains the verdicts on augments. Each augment gets one verdict in the course of the rounds. Since trees
only gain entries, a verdict that an augment gets on the way is the one that it would get in the end, and an augment
whose target is missing when the rounds stop has a missing target in the trees that are left.
-/

namespace Yang

/--
What is made of an augment: it is grafted onto a target, it is refused, or its target is missing.
-/
inductive Verdict where
  | grafted (target : Target)
  | refused (finding : Finding)
  | missing
  deriving DecidableEq, Repr, Inhabited

def Verdict.finding? (graft : Graft) : Verdict → Option Finding
  | grafted _ => none
  | refused finding => some finding
  | missing => some (.targetNotFound graft.augment.target)

namespace Scopes

def verdict (scopes : Scopes) (forest : Forest) (graft : Graft) : Verdict :=
  match scopes.target forest graft with
  | .error finding => .refused finding
  | .ok none => .missing
  | .ok (some (_, target)) => .grafted target

/--
What a verdict on an augment does to a forest and to the work: the nodes of the augment are added to the entry that it
goes to, or what speaks against the augment is reported.
-/
inductive Decides (scopes : Scopes) (graft : Graft) : Forest → Work → Verdict → Forest → Work → Prop
  | grafted {forest : Forest} {w w' : Work} {entry : Entry} {children : List Entry} {target : Target}
    (h : scopes.target forest graft = .ok (some (entry, target)))
    (hadds : scopes.addNodes [] (spotOf forest target) graft.context (scopes.ownerOf graft) graft.augment.nodes
      entry.children (w.note (.augmenting graft.augment.target graft.context.document.name)) = (children, w')) :
    Decides scopes graft forest w (.grafted target) (Entry.regrowIn children target.module target.names forest) w'
  | refused {forest : Forest} {w : Work} {finding : Finding} (h : scopes.target forest graft = .error finding) :
    Decides scopes graft forest w (.refused finding) forest (w.report graft.context finding)
  | missing {forest : Forest} {w : Work} (h : scopes.target forest graft = .ok none) :
    Decides scopes graft forest w .missing forest (w.report graft.context (.targetNotFound graft.augment.target))

inductive DecidesAll (scopes : Scopes) : Forest → Work → List (Graft × Verdict) → Forest → Work → Prop
  | nil (forest : Forest) (w : Work) : DecidesAll scopes forest w [] forest w
  | cons {forest forest' forest'' : Forest} {w w' w'' : Work} {graft : Graft} {verdict : Verdict}
    {rest : List (Graft × Verdict)} (h : Decides scopes graft forest w verdict forest' w')
    (hrest : DecidesAll scopes forest' w' rest forest'' w'') :
    DecidesAll scopes forest w ((graft, verdict) :: rest) forest'' w''

variable {scopes : Scopes} {owner : Owner} {graft : Graft} {forest forest' forest'' : Forest} {w w' w'' : Work}
  {decided more : List (Graft × Verdict)}

theorem DecidesAll.append (h : DecidesAll scopes forest w decided forest' w')
    (h' : DecidesAll scopes forest' w' more forest'' w'') :
    DecidesAll scopes forest w (decided ++ more) forest'' w'' := by
  induction h with
  | nil => exact h'
  | cons hstep _ ih => exact .cons hstep (ih h')

theorem Adds.eq_append {inside : List DefinitionKey} {spot : Spot} {context : Context} {nodes : List Node}
    {children children' : List Entry} (h : Adds scopes owner inside spot context nodes children w children' w') :
    ∃ grown, children' = children ++ grown := by
  induction h with
  | nil => exact ⟨[], (List.append_nil _).symm⟩
  | unresolved _ _ ih => exact ih
  | recursive _ _ _ ih => exact ih
  | expanded _ _ _ _ ihinner ihmore =>
    obtain ⟨grown, rfl⟩ := ihinner
    obtain ⟨more, rfl⟩ := ihmore
    exact ⟨grown ++ more, List.append_assoc _ _ _⟩
  | misplaced _ _ _ ih => exact ih
  | placed _ _ _ _ _ _ ihmore =>
    obtain ⟨more, rfl⟩ := ihmore
    exact ⟨_ :: more, List.append_assoc _ _ _⟩

theorem target_regrowIn {entry : Entry} {target : Target} (h : scopes.target forest graft = .ok (some (entry, target)))
    (children : List Entry) :
    scopes.target (Entry.regrowIn children target.module target.names forest) graft
      = .ok (some (.mk entry.head children, target)) := by
  obtain ⟨⟨segment, rest, m, tree, hsegments, hm, rfl, htree, hfollows⟩, hleaf⟩ := target_eq_some_iff.1 h
  exact target_eq_some_iff.2 ⟨⟨segment, rest, m, _, hsegments, hm, rfl, Entry.named?_regrowIn children _ htree,
    hfollows.regrow children⟩, hleaf⟩

theorem Decides.gains {verdict : Verdict} (h : Decides scopes graft forest w verdict forest' w') :
    Entry.Gains forest forest' := by
  cases h with
  | grafted h hadds =>
    obtain ⟨tree, htree, hd⟩ := (target_eq_some_iff.1 h).path
    obtain ⟨grown, hgrown⟩ := (adds_of_addNodes hadds).eq_append
    apply Entry.gains_regrowIn htree hd
    rw [hgrown]
    exact Entry.gains_append _ _
  | refused => exact .refl forest
  | missing => exact .refl forest

theorem Decides.heads {verdict : Verdict} (h : Decides scopes graft forest w verdict forest' w') :
    forest'.map Entry.head = forest.map Entry.head := by
  cases h with
  | grafted => exact Entry.heads_regrowIn _ _ _ _
  | refused => rfl
  | missing => rfl

theorem DecidesAll.gains (h : DecidesAll scopes forest w decided forest' w') : Entry.Gains forest forest' := by
  induction h with
  | nil => exact .refl _
  | cons hstep _ ih => exact hstep.gains.trans ih

theorem follow_gains (scopes : Scopes) (graft : Graft) {e e' : Entry} (h : Entry.Gains e.children e'.children)
    (hhead : e.head = e'.head) (before : List String) (segments : List Reference) :
    match scopes.follow graft e before segments with
    | .error finding => scopes.follow graft e' before segments = .error finding
    | .ok none => True
    | .ok (some (d, names)) => ∃ d', scopes.follow graft e' before segments = .ok (some (d', names)) ∧ d.head = d'.head
      ∧ Entry.Gains d.children d'.children := by
  induction segments generalizing e e' before with
  | nil =>
    unfold follow
    exact ⟨e', rfl, hhead, h⟩
  | cons segment rest ih =>
    unfold follow
    cases hm : scopes.moduleOf graft segment with
    | error finding => rfl
    | ok m =>
      dsimp only
      cases hc : e.child? segment.name with
      | none => exact trivial
      | some c =>
        obtain ⟨c', hc', hsame, hbelow⟩ := h.named? hc
        dsimp only
        rw [show e'.child? segment.name = some c' from hc']
        dsimp only
        rw [← hsame]
        by_cases huri : c.head.uri = m.uri
        · rw [if_pos huri, if_pos huri]
          exact ih hbelow hsame (segment.name :: before)
        · rw [if_neg huri]
          exact trivial

theorem target_gains (scopes : Scopes) (graft : Graft) (h : Entry.Gains forest forest') :
    match scopes.target forest graft with
    | .error finding => scopes.target forest' graft = .error finding
    | .ok none => True
    | .ok (some (entry, target)) => ∃ entry', scopes.target forest' graft = .ok (some (entry', target))
      ∧ entry.head = entry'.head ∧ Entry.Gains entry.children entry'.children := by
  unfold Scopes.target
  cases graft.augment.segments.map Reference.ofText with
  | nil => rfl
  | cons segment rest =>
    dsimp only
    cases scopes.moduleOf graft segment with
    | error finding => rfl
    | ok m =>
      dsimp only
      cases hnamed : Entry.named? m.name forest with
      | none => exact trivial
      | some tree =>
        obtain ⟨tree', hnamed', hhead, hbelow⟩ := h.named? hnamed
        dsimp only
        rw [hnamed']
        dsimp only
        have hfollow := follow_gains scopes graft hbelow hhead [] (segment :: rest)
        generalize scopes.follow graft tree [] (segment :: rest) = found at hfollow ⊢
        cases found with
        | error finding =>
          dsimp only at hfollow ⊢
          rw [hfollow]
        | ok found =>
          cases found with
          | none => exact trivial
          | some found =>
            obtain ⟨entry, names⟩ := found
            obtain ⟨entry', hfound', hsame, hgains⟩ := hfollow
            dsimp only
            rw [hfound']
            dsimp only
            rw [← hsame]
            by_cases hleaf : entry.head.kind.isLeaf = true
            · rw [if_pos hleaf, if_pos hleaf]
            · rw [if_neg hleaf, if_neg hleaf]
              exact ⟨entry', rfl, hsame, hgains⟩

theorem verdict_gains (h : Entry.Gains forest forest') (hready : scopes.verdict forest graft ≠ .missing) :
    scopes.verdict forest' graft = scopes.verdict forest graft := by
  have htarget := target_gains scopes graft h
  unfold verdict at hready ⊢
  split at htarget
  · rw [htarget]
  · next heq =>
    rw [heq] at hready
    exact (hready rfl).elim
  · obtain ⟨entry', hfound, _⟩ := htarget
    rw [hfound]

theorem Decides.eq_verdict {verdict : Verdict} (h : Decides scopes graft forest w verdict forest' w') :
    verdict = scopes.verdict forest graft := by
  unfold Scopes.verdict
  cases h with
  | grafted h _ => rw [h]
  | refused h => rw [h]
  | missing h => rw [h]

theorem decides_round (scopes : Scopes) (grafts : List Graft) (forest : Forest) (w : Work) :
    let r := scopes.round grafts forest w
    ∃ decided, grafts.Perm (decided.map Prod.fst ++ r.1) ∧ DecidesAll scopes forest w decided r.2.1 r.2.2
      ∧ ∀ p ∈ decided, p.2 ≠ .missing ∧ p.2 = scopes.verdict r.2.1 p.1 := by
  induction grafts generalizing forest w with
  | nil => exact ⟨[], .nil, .nil forest w, by simp⟩
  | cons graft rest ih =>
    have hdecided : ∀ {verdict forest' w'}, Decides scopes graft forest w verdict forest' w' → verdict ≠ .missing →
        let r := scopes.round rest forest' w'
        ∃ decided, (graft :: rest).Perm (decided.map Prod.fst ++ r.1) ∧ DecidesAll scopes forest w decided r.2.1 r.2.2
          ∧ ∀ p ∈ decided, p.2 ≠ .missing ∧ p.2 = scopes.verdict r.2.1 p.1 := by
      intro verdict forest' w' hstep hready
      obtain ⟨decided, hperm, hall, hverdicts⟩ := ih forest' w'
      refine ⟨(graft, verdict) :: decided, hperm.cons graft, .cons hstep hall, ?_⟩
      rw [List.forall_mem_cons]
      refine ⟨⟨hready, ?_⟩, hverdicts⟩
      have hgains := hstep.gains.trans hall.gains
      have heq := hstep.eq_verdict
      rw [heq] at hready ⊢
      exact (verdict_gains hgains hready).symm
    unfold round
    split
    · next finding h => exact hdecided (.refused h) nofun
    · obtain ⟨decided, hperm, hall, hverdicts⟩ := ih forest w
      exact ⟨decided, (hperm.cons graft).trans List.perm_middle.symm, hall, hverdicts⟩
    · next entry target h =>
      rw [apply_eq]
      exact hdecided (.grafted h rfl) nofun

theorem decides_reportWaiting {waiting : List Graft} (h : ∀ graft ∈ waiting, scopes.target forest graft = .ok none)
    (w : Work) :
    DecidesAll scopes forest w (waiting.map fun graft => (graft, .missing)) forest (reportWaiting waiting w) := by
  induction waiting generalizing w with
  | nil => exact .nil forest w
  | cons graft rest ih =>
    rw [List.forall_mem_cons] at h
    exact .cons (.missing h.1) (ih h.2 _)

theorem decides_graftAll (scopes : Scopes) (grafts : List Graft) (forest : Forest) (w : Work) :
    let r := scopes.graftAll grafts forest w
    ∃ decided, (decided.map Prod.fst).Perm grafts ∧ DecidesAll scopes forest w decided r.1 r.2
      ∧ ∀ p ∈ decided, p.2 = scopes.verdict r.1 p.1 := by
  fun_induction graftAll scopes grafts forest w with
  | case1 grafts forest w r hlt ih =>
    obtain ⟨decided, hperm, hall, hverdicts⟩ := scopes.decides_round grafts forest w
    obtain ⟨later, hperm', hall', hverdicts'⟩ := ih
    refine ⟨decided ++ later, ?_, hall.append hall', ?_⟩
    · rw [List.map_append]
      exact (List.Perm.append_left _ hperm').trans hperm.symm
    · intro p hp
      rcases List.mem_append.1 hp with hp | hp
      · -- what is decided in this round holds in the forest of the last round
        obtain ⟨hready, heq⟩ := hverdicts p hp
        rw [heq] at hready ⊢
        exact (verdict_gains hall'.gains hready).symm
      · exact hverdicts' p hp
  | case2 grafts forest w r hlt =>
    -- the last round decides on nothing and changes no tree, so all that wait have missing targets in the end
    obtain ⟨heq, hwait⟩ := round_of_length_eq (Nat.le_of_not_lt hlt)
    have hr : r = (grafts, forest, w) := heq
    rw [hr]
    refine ⟨_, ?_, decides_reportWaiting hwait w, ?_⟩
    · rw [List.map_map]
      exact .of_eq (List.map_id grafts)
    · intro p hp
      obtain ⟨graft, hgraft, rfl⟩ := List.mem_map.1 hp
      unfold verdict
      rw [hwait graft hgraft]

end Scopes

end Yang

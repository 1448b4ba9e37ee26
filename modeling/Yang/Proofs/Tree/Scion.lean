import Yang.Proofs.Entry.At
import Yang.Proofs.Tree.Grafted

/-!
This module contains scions: augments together with what they bring to their places. Augments that are grafted one after
the other bring entries that were not there before and that no other augment brings, so a forest is told by what it was
and by its scions, whatever their order.
-/

namespace Yang

structure Scion where
  graft : Graft
  target : Target
  head : EntryHead
  grown : List Entry

namespace Scion

def way (scion : Scion) : List String :=
  scion.target.module :: scion.target.names

def Brings (scion : Scion) (way : List String) (head : EntryHead) : Prop :=
  ∃ rest, way = scion.way ++ rest ∧ Entry.At scion.grown rest head

def Apart (a b : Scion) : Prop :=
  ∀ way h h', a.Brings way h → ¬ b.Brings way h'

structure Takes (scopes : Scopes) (forest : Forest) (scion : Scion) : Prop where
  place : ∃ entry, Scopes.Targets scopes forest scion.graft entry scion.target ∧ entry.head = scion.head
  grows : scopes.Grows (scopes.ownerOf scion.graft) [] scion.graft.context scion.head scion.graft.augment.nodes
    scion.grown
  names : (scion.grown.map Entry.name).Nodup

theorem Apart.symm {a b : Scion} (h : Apart a b) : Apart b a :=
  fun way h₁ h₂ hb ha => h way h₂ h₁ ha hb

end Scion

namespace Scopes

open Entry

variable {scopes : Scopes} {graft : Graft} {forest forest' : Forest} {entry : Entry} {target : Target}

theorem Follows.of_shared {e d e' : Entry} {segments : List Reference} (h : Follows scopes graft e segments d)
    (hhead : e.head = e'.head) (ho : Orderly e.children) (ho' : Orderly e'.children)
    (hs : Shared e.children e'.children (segments.map Reference.name)) :
    ∃ d', Follows scopes graft e' segments d' ∧ d.head = d'.head := by
  induction h generalizing e' with
  | nil => exact ⟨e', .nil e', hhead⟩
  | @cons e c d segment rest m hm hc huri _ ih =>
    obtain ⟨c', hc', hchild, hrest⟩ := hs.named? ho ho' hc
    obtain ⟨d', hd', heq⟩ := ih hchild (ho.children (named?_spec hc).1) (ho'.children (named?_spec hc').1) hrest
    refine ⟨d', .cons hm hc' ?_ hd', heq⟩
    rw [← hchild]
    exact huri

theorem Targets.of_shared (ht : Targets scopes forest graft entry target) (ho : Orderly forest)
    (ho' : Orderly forest') (hs : Shared forest forest' (target.module :: target.names)) :
    ∃ entry', Targets scopes forest' graft entry' target ∧ entry.head = entry'.head := by
  obtain ⟨⟨segment, rest, m, tree, hsegments, hm, rfl, htree, hfollows⟩, hinner⟩ := ht
  obtain ⟨tree', htree', hhead, hrest⟩ := hs.named? ho ho' htree
  obtain ⟨entry', hfollows', heq⟩ := hfollows.of_shared hhead (ho.children (named?_spec htree).1)
    (ho'.children (named?_spec htree').1) hrest
  refine ⟨entry', ⟨⟨segment, rest, m, tree', hsegments, hm, rfl, htree', hfollows'⟩, ?_⟩, heq⟩
  rw [← heq]
  exact hinner

theorem Targets.at (ht : Targets scopes forest graft entry target) :
    At forest (target.module :: target.names) entry.head := by
  obtain ⟨tree, htree, hd⟩ := ht.path
  exact at_of_descend? htree hd

theorem Targets.mono (ht : Targets scopes forest graft entry target) (ho : Orderly forest) (ho' : Orderly forest')
    (hsub : ∀ way h, At forest way h → At forest' way h) :
    ∃ entry', Targets scopes forest' graft entry' target ∧ entry.head = entry'.head :=
  ht.of_shared ho ho' (shared_of_at hsub ht.at)

theorem Targets.anti (ht : Targets scopes forest graft entry target) (ho : Orderly forest) (ho' : Orderly forest')
    (hsub : ∀ way h, At forest' way h → At forest way h) {h : EntryHead}
    (hat : At forest' (target.module :: target.names) h) :
    ∃ entry', Targets scopes forest' graft entry' target ∧ entry.head = entry'.head :=
  ht.of_shared ho ho' (shared_of_at hsub hat).symm

structure Unfolds (scopes : Scopes) (trees forest : Forest) (scions : List Scion) : Prop where
  takes : ∀ scion ∈ scions, scion.Takes scopes forest
  entries : ∀ way h, At forest way h ↔ At trees way h ∨ ∃ scion ∈ scions, scion.Brings way h
  fresh : ∀ scion ∈ scions, ∀ way h h', scion.Brings way h → ¬ At trees way h'
  apart : scions.Pairwise Scion.Apart
  reach : ∀ done todo, scions.Perm (done ++ todo) → todo ≠ [] →
    ∃ scion ∈ todo, ∃ h, At trees scion.way h ∨ ∃ other ∈ done, other.Brings scion.way h

variable {trees : Forest} {grown : List Entry}

theorem Grafted.at_iff (hg : Grafted scopes forest graft entry target grown forest') (way : List String)
    (h : EntryHead) :
    At forest' way h ↔ At forest way h ∨ (Scion.mk graft target entry.head grown).Brings way h := by
  obtain ⟨tree, htree, hd⟩ := hg.targets.path
  rw [hg.result]
  exact at_regrowIn htree hd way

theorem Grafted.fresh (hg : Grafted scopes forest graft entry target grown forest') (ho : Orderly forest)
    {way : List String} {h : EntryHead} (hbrings : (Scion.mk graft target entry.head grown).Brings way h)
    (h' : EntryHead) : ¬ At forest way h' := by
  obtain ⟨tree, htree, hd⟩ := hg.targets.path
  obtain ⟨rest, rfl, hat⟩ := hbrings
  cases rest with
  | nil => exact (not_at_nil hat).elim
  | cons n rest =>
    intro hat'
    have hnames := hg.names
    rw [List.map_append, List.nodup_append] at hnames
    unfold Scion.way at hat'
    rw [List.cons_append, at_below_iff ho htree hd (List.cons_ne_nil _ _)] at hat'
    exact hnames.2.2 n (mem_names_of_at hat') n (mem_names_of_at hat) rfl

theorem Grafted.orderly (hg : Grafted scopes forest graft entry target grown forest') (ho : Orderly forest) :
    Orderly forest' where
  names := by
    rw [hg.result, names_eq, heads_regrowIn, ← names_eq]
    exact ho.names
  below := hg.tidy ho.below

theorem GraftedAll.orderly {order : List Graft} (hg : GraftedAll scopes trees order forest) (ho : Orderly trees) :
    Orderly forest := by
  induction hg with
  | nil => exact ho
  | cons hstep _ ih => exact ih (hstep.orderly ho)

theorem Unfolds.nil (forest : Forest) : Unfolds scopes forest forest [] where
  takes := by simp
  entries := by simp
  fresh := by simp
  apart := .nil
  reach := by
    intro done todo hperm hne
    rw [List.nil_perm, List.append_eq_nil_iff] at hperm
    exact (hne hperm.2).elim

theorem Unfolds.cons {scions : List Scion} (hg : Grafted scopes trees graft entry target grown forest')
    (hu : Unfolds scopes forest' forest scions) (ho : Orderly trees) (ho' : Orderly forest) :
    Unfolds scopes trees forest (⟨graft, target, entry.head, grown⟩ :: scions) := by
  have hmono : ∀ way h, At trees way h → At forest way h := by
    intro way h hat
    rw [hu.entries, hg.at_iff]
    exact .inl (.inl hat)
  constructor
  · rw [List.forall_mem_cons]
    refine ⟨?_, hu.takes⟩
    obtain ⟨entry', hplace, hhead⟩ := hg.targets.mono ho ho' hmono
    have hnames := hg.names
    rw [List.map_append, List.nodup_append] at hnames
    exact ⟨⟨entry', hplace, hhead.symm⟩, hg.grows, hnames.2.1⟩
  · intro way h
    rw [hu.entries, hg.at_iff, or_assoc, List.exists_mem_cons_iff]
  · rw [List.forall_mem_cons]
    refine ⟨fun way h h' hbrings => hg.fresh ho hbrings h', fun scion hscion way h h' hbrings hat => ?_⟩
    apply hu.fresh scion hscion way h h' hbrings
    rw [hg.at_iff]
    exact .inl hat
  · rw [List.pairwise_cons]
    refine ⟨fun scion hscion way h h' hbrings hbrings' => ?_, hu.apart⟩
    apply hu.fresh scion hscion way h' h hbrings'
    rw [hg.at_iff]
    exact .inr hbrings
  · intro done todo hperm hne
    -- the first scion has its place in the trees; behind it another one has its place by what was there before
    rcases List.mem_append.1 (hperm.mem_iff.1 List.mem_cons_self) with hin | hin
    · obtain ⟨before, after, rfl⟩ := List.append_of_mem hin
      rw [List.append_assoc, List.cons_append] at hperm
      have hrest := (hperm.trans List.perm_middle).cons_inv
      rw [← List.append_assoc] at hrest
      obtain ⟨scion, hscion, h, hreach⟩ := hu.reach (before ++ after) todo hrest hne
      rw [hg.at_iff, or_assoc] at hreach
      refine ⟨scion, hscion, h, ?_⟩
      rcases hreach with hat | hbrings | ⟨other, hother, hbrings⟩
      · exact .inl hat
      · exact .inr ⟨_, hin, hbrings⟩
      · refine .inr ⟨other, ?_, hbrings⟩
        rw [List.mem_append] at hother
        rw [List.mem_append, List.mem_cons]
        exact hother.imp id .inr
    · exact ⟨_, hin, entry.head, .inl hg.targets.at⟩

theorem GraftedAll.unfolds {order : List Graft} (hg : GraftedAll scopes trees order forest) (ho : Orderly trees) :
    ∃ scions, scions.map Scion.graft = order ∧ Unfolds scopes trees forest scions := by
  induction hg with
  | nil forest => exact ⟨[], rfl, .nil forest⟩
  | cons hstep hrest ih =>
    have ho' := hstep.orderly ho
    obtain ⟨scions, hscions, hu⟩ := ih ho'
    exact ⟨_, by rw [List.map_cons, hscions], hu.cons hstep ho (hrest.orderly ho')⟩

end Scopes

end Yang

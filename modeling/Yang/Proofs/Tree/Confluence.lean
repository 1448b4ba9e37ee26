import Yang.Proofs.Tree.Scion

/-!
This module contains the confluence of grafting: whatever the order in which augments stand, the rounds graft all of
them without a problem when some order of grafting does, and what is found along all ways in the end is the same.
-/

namespace Yang.Scopes

open Entry

variable {scopes : Scopes} {graft : Graft} {forest forest' trees : Forest} {entry : Entry} {target : Target}

theorem Follows.exists_follow {e d : Entry} {segments : List Reference} (h : Follows scopes graft e segments d)
    (e' : Entry) (before : List String) : ∃ found, scopes.follow graft e' before segments = .ok found := by
  induction h generalizing e' before with
  | nil => exact ⟨_, rfl⟩
  | cons hm _ _ _ ih =>
    unfold follow
    rw [hm]
    dsimp only
    split
    · exact ⟨_, rfl⟩
    · split
      · apply ih
      · exact ⟨_, rfl⟩

theorem Targets.waits_or (ht : Targets scopes forest graft entry target) (ho : Orderly forest)
    (hsub : ∀ way h, At forest' way h → At forest way h) :
    scopes.target forest' graft = .ok none
      ∨ ∃ entry', Targets scopes forest' graft entry' target ∧ entry'.head = entry.head := by
  have hat := ht.at
  obtain ⟨⟨segment, rest, m, tree, hsegments, hm, rfl, _, hfollows⟩, hinner⟩ := ht
  unfold Scopes.target
  rw [hsegments]
  dsimp only
  rw [hm]
  dsimp only
  -- on the way through fewer entries either something is missing, or the same entry is reached
  cases hnamed : named? m.name forest' with
  | none => exact .inl rfl
  | some tree' =>
    obtain ⟨found, hfound⟩ := hfollows.exists_follow tree' []
    dsimp only
    rw [hfound]
    cases found with
    | none => exact .inl rfl
    | some found =>
      obtain ⟨entry', names⟩ := found
      obtain ⟨hfollows', _⟩ := follow_eq_some_iff.1 hfound
      have hhead : entry'.head = entry.head := by
        apply At.unique ho _ hat
        apply hsub
        exact at_of_descend? hnamed hfollows'.descend?
      right
      refine ⟨entry', ⟨⟨segment, rest, m, tree', hsegments, hm, rfl, hnamed, hfollows'⟩, ?_⟩, hhead⟩
      rw [hhead]
      exact hinner

theorem Grafted.apply (hc : scopes.Coherent) {grown : List Entry}
    (hg : Grafted scopes forest graft entry target grown forest') {w : Work} (hw : w.Faithful scopes)
    (hnil : w.problems = []) :
    let r := scopes.apply forest graft entry target w
    r.1 = forest' ∧ r.2.Faithful scopes ∧ r.2.problems = [] := by
  have hnote := hw.note (.augmenting graft.augment.target graft.context.document.name)
  obtain ⟨w', hadds, hw', hnil'⟩ := hg.grows.adds hc hg.targets.head_spotOf hnote hnil hg.names
  rw [apply_eq, hadds.eq_addNodes, hg.result]
  exact ⟨rfl, hw', hnil'⟩

structure Unfolded (trees forest : Forest) (done : List Scion) : Prop where
  orderly : Orderly forest
  entries : ∀ way h, At forest way h ↔ At trees way h ∨ ∃ scion ∈ done, scion.Brings way h

variable {scions done todo : List Scion} {grown : Forest}

theorem Unfolds.sub (hu : Unfolds scopes trees forest scions) (hdone : Unfolded trees grown done)
    (hsub : done ⊆ scions) (way : List String) (h : EntryHead) (hat : At grown way h) : At forest way h := by
  rw [hdone.entries] at hat
  rw [hu.entries]
  rcases hat with hat | ⟨scion, hscion, hbrings⟩
  · exact .inl hat
  · exact .inr ⟨scion, hsub hscion, hbrings⟩

theorem Unfolded.snoc (hdone : Unfolded trees grown done) {scion : Scion} (htakes : scion.Takes scopes forest)
    (ht : Targets scopes grown scion.graft entry scion.target) (hhead : entry.head = scion.head)
    (hfresh : ∀ way h h', scion.Brings way h → ¬ At grown way h') :
    ∃ grown', Grafted scopes grown scion.graft entry scion.target scion.grown grown'
      ∧ Unfolded trees grown' (done ++ [scion]) := by
  have hnames : ((entry.children ++ scion.grown).map name).Nodup := by
    obtain ⟨tree, htree, hd⟩ := ht.path
    have horderly : Orderly entry.children := by
      rw [orderly_children_iff]
      exact All.descend (hdone.orderly.below tree (named?_spec htree).1) hd
    rw [List.map_append, List.nodup_append]
    refine ⟨horderly.names, htakes.names, ?_⟩
    rintro _ hn n hn' rfl
    obtain ⟨e, he, rfl⟩ := List.mem_map.1 hn
    obtain ⟨e', he', heq⟩ := List.mem_map.1 hn'
    apply hfresh (scion.way ++ [e.name]) e'.head e.head
    · refine ⟨_, rfl, ?_⟩
      rw [← heq]
      exact at_of_mem he'
    · unfold Scion.way
      rw [List.cons_append, at_below_iff hdone.orderly htree hd (List.cons_ne_nil _ _)]
      exact at_of_mem he
  have hgrows := htakes.grows
  rw [← hhead] at hgrows
  have hg : Grafted scopes grown scion.graft entry scion.target scion.grown _ := ⟨ht, hgrows, hnames, rfl⟩
  refine ⟨_, hg, hg.orderly hdone.orderly, fun way h => ?_⟩
  rw [hg.at_iff, hdone.entries, or_assoc, hhead]
  simp only [List.mem_append, List.mem_singleton, or_and_right, exists_or, exists_eq_left]

theorem Unfolded.fresh (hu : Unfolds scopes trees forest scions) (hdone : Unfolded trees grown done) {scion : Scion}
    (hscion : scion ∈ scions) (hapart : ∀ other ∈ done, other.Apart scion) {way : List String} {h : EntryHead}
    (hbrings : scion.Brings way h) (h' : EntryHead) : ¬ At grown way h' := by
  rw [hdone.entries]
  rintro (hat | ⟨other, hother, hbrings'⟩)
  · exact hu.fresh scion hscion way h h' hbrings hat
  · exact hapart other hother way h' h hbrings' hbrings

theorem round_unfolded (hc : scopes.Coherent) (ho : Orderly forest) (hu : Unfolds scopes trees forest scions)
    (hdone : Unfolded trees grown done) (hsub : done ++ todo ⊆ scions) (hapart : (done ++ todo).Pairwise Scion.Apart)
    {w : Work} (hw : w.Faithful scopes) (hnil : w.problems = []) :
    let r := scopes.round (todo.map Scion.graft) grown w
    r.2.2.Faithful scopes ∧ r.2.2.problems = []
      ∧ ∃ done' left, (done ++ todo).Perm (done' ++ left) ∧ r.1 = left.map Scion.graft
        ∧ Unfolded trees r.2.1 done' := by
  induction todo generalizing done grown w with
  | nil => exact ⟨hw, hnil, done, [], .refl _, rfl, hdone⟩
  | cons scion rest ih =>
    have hscion : scion ∈ scions := hsub (by simp)
    have htakes := hu.takes scion hscion
    obtain ⟨place, hplace, hhead⟩ := htakes.place
    have hdones : done ⊆ scions := List.Subset.trans (List.subset_append_left _ _) hsub
    rw [List.map_cons]
    unfold round
    rcases hplace.waits_or ho (hu.sub hdone hdones) with hnone | ⟨entry, ht, heq⟩
    · -- the scion waits, and is left after the round
      rw [hnone]
      have hrest : (done ++ rest).Sublist (done ++ scion :: rest) :=
        (List.sublist_cons_self _ _).append_left done
      obtain ⟨hw', hnil', done', left, hperm, hleft, hdone'⟩ :=
        ih hdone (List.Subset.trans hrest.subset hsub) (hapart.sublist hrest) hw hnil
      refine ⟨hw', hnil', done', scion :: left, ?_, ?_, hdone'⟩
      · exact (List.perm_middle.trans (hperm.cons scion)).trans List.perm_middle.symm
      · dsimp only
        rw [hleft, List.map_cons]
    · -- the scion is grafted, and is among those that the rest of the round finds in the forest
      rw [target_eq_some_iff.2 ht]
      have hnew : ∀ other ∈ done, other.Apart scion := by
        intro other hother
        exact (List.pairwise_append.1 hapart).2.2 other hother scion List.mem_cons_self
      obtain ⟨grown', hg, hdone'⟩ := hdone.snoc htakes ht (heq.trans hhead)
        (fun way h h' hbrings => hdone.fresh hu hscion hnew hbrings h')
      obtain ⟨hresult, hw', hnil'⟩ := hg.apply hc hw hnil
      dsimp only
      rw [hresult]
      rw [List.append_cons] at hsub hapart ⊢
      exact ih hdone' hsub hapart hw' hnil'

theorem round_of_length_eq {grafts : List Graft} {w : Work}
    (h : grafts.length ≤ (scopes.round grafts forest w).1.length) :
    scopes.round grafts forest w = (grafts, forest, w) ∧ ∀ graft ∈ grafts, scopes.target forest graft = .ok none := by
  induction grafts with
  | nil => exact ⟨rfl, by simp⟩
  | cons graft rest ih =>
    unfold round at h ⊢
    split at h
    · next finding _ =>
      have hle := scopes.length_round_le rest forest (w.report graft.context finding)
      rw [List.length_cons] at h
      omega
    · next hnone =>
      dsimp only at h
      rw [List.length_cons, List.length_cons] at h
      obtain ⟨heq, hwait⟩ := ih (by omega)
      rw [heq, List.forall_mem_cons]
      exact ⟨rfl, hnone, hwait⟩
    · next entry target _ =>
      have hle := scopes.length_round_le rest (scopes.apply forest graft entry target w).1
        (scopes.apply forest graft entry target w).2
      dsimp only at h
      rw [List.length_cons] at h
      omega

theorem Unfolds.exists_ready (hu : Unfolds scopes trees forest scions) (ho : Orderly forest)
    (hdone : Unfolded trees grown done) (hperm : scions.Perm (done ++ todo)) (hne : todo ≠ []) :
    ∃ scion ∈ todo, scopes.target grown scion.graft ≠ .ok none := by
  obtain ⟨scion, hscion, h, hreach⟩ := hu.reach done todo hperm hne
  obtain ⟨place, hplace, _⟩ := (hu.takes scion (hperm.mem_iff.2 (List.mem_append_right _ hscion))).place
  have hat : At grown scion.way h := (hdone.entries _ _).2 hreach
  have hsub := hu.sub hdone (fun other hother => hperm.mem_iff.2 (List.mem_append_left _ hother))
  obtain ⟨entry, ht, _⟩ := hplace.anti ho hdone.orderly hsub hat
  refine ⟨scion, hscion, ?_⟩
  rw [target_eq_some_iff.2 ht]
  nofun

theorem graftAll_unfolded (hc : scopes.Coherent) (ho : Orderly forest) (hu : Unfolds scopes trees forest scions)
    (hdone : Unfolded trees grown done) (hperm : scions.Perm (done ++ todo)) {w : Work} (hw : w.Faithful scopes)
    (hnil : w.problems = []) :
    let r := scopes.graftAll (todo.map Scion.graft) grown w
    r.2.problems = [] ∧ Unfolded trees r.1 scions := by
  induction hn : todo.length using Nat.strongRecOn generalizing todo done grown w with
  | ind n ih =>
    have hsub : done ++ todo ⊆ scions := fun _ h => hperm.mem_iff.2 h
    have hapart : (done ++ todo).Pairwise Scion.Apart := (hperm.pairwise_iff Scion.Apart.symm).1 hu.apart
    obtain ⟨hw', hnil', done', left, hperm', hleft, hdone'⟩ := round_unfolded hc ho hu hdone hsub hapart hw hnil
    rw [graftAll]
    dsimp only
    split
    · next hlt =>
      rw [hleft, List.length_map, List.length_map, hn] at hlt
      rw [hleft]
      exact ih left.length hlt hdone' (hperm.trans hperm') hw' hnil' rfl
    · next hge =>
      obtain ⟨heq, hwait⟩ := round_of_length_eq (Nat.le_of_not_lt hge)
      -- a round that grafts nothing leaves only scions that wait, but one of those that are left never does
      have htodo : todo = [] := by
        by_contra hne
        obtain ⟨scion, hscion, hready⟩ := hu.exists_ready ho hdone hperm hne
        exact hready (hwait _ (List.mem_map_of_mem hscion))
      subst htodo
      rw [heq]
      rw [List.append_nil] at hperm
      refine ⟨hnil, hdone.orderly, fun way h => ?_⟩
      rw [hdone.entries]
      simp only [hperm.mem_iff]

theorem Unfolds.perm {scions' : List Scion} (hu : Unfolds scopes trees forest scions) (hperm : scions.Perm scions') :
    Unfolds scopes trees forest scions' where
  takes := fun scion hscion => hu.takes scion (hperm.mem_iff.2 hscion)
  entries := by
    intro way h
    rw [hu.entries]
    simp only [hperm.mem_iff]
  fresh := fun scion hscion => hu.fresh scion (hperm.mem_iff.2 hscion)
  apart := (hperm.pairwise_iff Scion.Apart.symm).1 hu.apart
  reach := fun done todo hsplit => hu.reach done todo (hperm.trans hsplit)

structure Blooms (scopes : Scopes) (trees forest : Forest) (scions : List Scion) : Prop where
  planted : List.Forall₂ scopes.Planted scopes trees
  grafts : (scions.map Scion.graft).Perm scopes.grafts
  start : Orderly trees
  orderly : Orderly forest
  unfolds : Unfolds scopes trees forest scions

theorem orderly_of_planted (hc : scopes.Coherent) {trees : List Entry} (h : List.Forall₂ scopes.Planted scopes trees) :
    Orderly trees where
  names := by
    have hnames := congrArg (List.map EntryHead.name) (heads_of_planted h)
    rw [← names_eq, List.map_map] at hnames
    rw [hnames]
    exact hc.distinct
  below := tidy_of_planted h

theorem Flourishes.blooms (hc : scopes.Coherent) (h : scopes.Flourishes forest) :
    ∃ trees scions, Blooms scopes trees forest scions := by
  obtain ⟨trees, order, hplanted, horder, hgrafted⟩ := h
  have ho := orderly_of_planted hc hplanted
  obtain ⟨scions, rfl, hu⟩ := hgrafted.unfolds ho
  exact ⟨trees, scions, hplanted, horder, ho, hgrafted.orderly ho, hu⟩

theorem Blooms.forest_spec (hc : scopes.Coherent) (hb : Blooms scopes trees forest scions) :
    scopes.forest.2.problems = [] ∧ Orderly scopes.forest.1 ∧ ∀ way h, At scopes.forest.1 way h ↔ At forest way h := by
  obtain ⟨htrees, hw, hnil⟩ := buildAll_of_planted hc hb.planted (Work.faithful_empty scopes) rfl (fun _ h => h)
  -- the scions in the order in which their augments stand
  have hpairs : List.Forall₂ (fun graft scion => graft = Scion.graft scion) (scions.map Scion.graft) scions := by
    rw [List.forall₂_map_left_iff]
    exact List.forall₂_same.2 (fun _ _ => rfl)
  obtain ⟨sorted, hsorted, hperm⟩ := List.perm_comp_forall₂ hb.grafts.symm hpairs
  have hgrafts : sorted.map Scion.graft = scopes.grafts := by
    rw [← List.forall₂_eq_eq_eq, List.forall₂_map_left_iff]
    exact hsorted.flip.imp fun _ _ h => h.symm
  have hstart : Unfolded trees trees [] := ⟨hb.start, by simp⟩
  have hu := hb.unfolds.perm hperm.symm
  obtain ⟨hnil', hdone⟩ := graftAll_unfolded hc hb.orderly hu hstart (.refl _) hw hnil
  unfold Scopes.forest
  dsimp only
  rw [htrees, ← hgrafts]
  refine ⟨hnil', hdone.orderly, fun way h => ?_⟩
  rw [hdone.entries, hu.entries]

end Yang.Scopes

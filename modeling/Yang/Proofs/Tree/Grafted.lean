import Yang.Proofs.Entry.Regrow
import Yang.Proofs.Tree.Planted
import Yang.Tree.Graft

/-!
This module contains the grafting of augments one at a time, in any order in which each finds its target. Augments are
grafted in rounds without a problem only when the rounds amount to such an order of all augments.
-/

namespace Yang.Scopes

inductive Follows (scopes : Scopes) (graft : Graft) : Entry → List Reference → Entry → Prop
  | nil (e : Entry) : Follows scopes graft e [] e
  | cons {e c d : Entry} {segment : Reference} {rest : List Reference} {m : Module}
    (hm : scopes.moduleOf graft segment = .ok m) (hc : e.child? segment.name = some c)
    (huri : c.head.uri = m.uri) (hrest : Follows scopes graft c rest d) :
    Follows scopes graft e (segment :: rest) d

variable {scopes : Scopes} {graft : Graft}

theorem follow_eq_some_iff {e d : Entry} {before names : List String} {segments : List Reference} :
    scopes.follow graft e before segments = .ok (some (d, names))
      ↔ Follows scopes graft e segments d ∧ names = before.reverse ++ segments.map Reference.name := by
  induction segments generalizing e before with
  | nil =>
    unfold follow
    simp only [Except.ok.injEq, Option.some.injEq, Prod.mk.injEq, List.map_nil, List.append_nil]
    constructor
    · rintro ⟨rfl, rfl⟩
      exact ⟨.nil e, rfl⟩
    · rintro ⟨h, rfl⟩
      cases h
      exact ⟨rfl, rfl⟩
  | cons segment rest ih =>
    unfold follow
    constructor
    · intro h
      split at h
      · cases h
      · next m hm =>
        split at h
        · cases h
        · next c hc =>
          split at h
          · next huri =>
            obtain ⟨hrest, hnames⟩ := ih.1 h
            exact ⟨.cons hm hc huri hrest, by simp [hnames]⟩
          · cases h
    · rintro ⟨h, rfl⟩
      cases h with
      | cons hm hc huri hrest =>
        rw [hm]
        dsimp only
        rw [hc]
        dsimp only
        rw [if_pos huri, ih]
        exact ⟨hrest, by simp⟩

theorem Follows.descend? {e d : Entry} {segments : List Reference} (h : Follows scopes graft e segments d) :
    e.descend? (segments.map Reference.name) = some d := by
  induction h with
  | nil => rfl
  | cons _ hc _ _ ih =>
    rw [List.map_cons, Entry.descend?, hc]
    exact ih

theorem Follows.regrow {e d : Entry} {segments : List Reference} (h : Follows scopes graft e segments d)
    (grown : List Entry) :
    Follows scopes graft (e.regrow grown (segments.map Reference.name)) segments (.mk d.head grown) := by
  induction h with
  | nil e =>
    obtain ⟨head, children⟩ := e
    rw [List.map_nil, Entry.regrow]
    exact .nil _
  | @cons e c d segment rest m hm hc huri hrest ih =>
    obtain ⟨head, children⟩ := e
    rw [List.map_cons, Entry.regrow]
    have hfound : (Entry.mk head (Entry.regrowIn grown segment.name (rest.map Reference.name) children)).child?
        segment.name = some (c.regrow grown (rest.map Reference.name)) := Entry.named?_regrowIn grown _ hc
    apply Follows.cons hm hfound _ ih
    rw [Entry.head_regrow]
    exact huri

structure Targets (scopes : Scopes) (forest : Forest) (graft : Graft) (entry : Entry) (target : Target) :
    Prop where
  found : ∃ segment rest m tree, graft.augment.segments.map Reference.ofText = segment :: rest
    ∧ scopes.moduleOf graft segment = .ok m ∧ target = ⟨m.name, (segment :: rest).map Reference.name⟩
    ∧ Entry.named? m.name forest = some tree ∧ Follows scopes graft tree (segment :: rest) entry
  inner : entry.head.kind.isLeaf = false

theorem target_eq_some_iff {forest : Forest} {entry : Entry} {target : Target} :
    scopes.target forest graft = .ok (some (entry, target)) ↔ Targets scopes forest graft entry target := by
  unfold Scopes.target
  constructor
  · intro h
    split at h
    · cases h
    · next segment rest hsegments =>
      split at h
      · cases h
      · next m hm =>
        split at h
        · cases h
        · next tree htree =>
          split at h
          · cases h
          · cases h
          · next entry' names hfollow =>
            split at h
            · cases h
            · next hleaf =>
              cases h
              obtain ⟨hfollows, hnames⟩ := follow_eq_some_iff.1 hfollow
              rw [List.reverse_nil, List.nil_append] at hnames
              rw [hnames]
              exact ⟨⟨segment, rest, m, tree, hsegments, hm, rfl, htree, hfollows⟩, by simpa using hleaf⟩
  · rintro ⟨⟨segment, rest, m, tree, hsegments, hm, rfl, htree, hfollows⟩, hleaf⟩
    rw [hsegments]
    dsimp only
    rw [hm]
    dsimp only
    rw [htree]
    dsimp only
    rw [follow_eq_some_iff.2 ⟨hfollows, rfl⟩]
    dsimp only
    rw [hleaf]
    rfl

theorem Targets.path {forest : Forest} {entry : Entry} {target : Target}
    (h : Targets scopes forest graft entry target) :
    ∃ tree, Entry.named? target.module forest = some tree ∧ tree.descend? target.names = some entry := by
  obtain ⟨⟨segment, rest, m, tree, _, _, rfl, htree, hfollows⟩, _⟩ := h
  exact ⟨tree, htree, hfollows.descend?⟩

theorem head_spotAlong {spot : Spot} {e d : Entry} {names : List String} (hspot : spot.head = e.head)
    (hd : e.descend? names = some d) : (spotAlong spot e names).head = d.head := by
  induction names generalizing spot e with
  | nil =>
    cases hd
    exact hspot
  | cons name rest ih =>
    obtain ⟨c, hc, hrest⟩ := Option.bind_eq_some_iff.1 hd
    unfold spotAlong
    rw [hc]
    exact ih rfl hrest

theorem Targets.head_spotOf {forest : Forest} {entry : Entry} {target : Target}
    (h : Targets scopes forest graft entry target) : (spotOf forest target).head = entry.head := by
  obtain ⟨tree, htree, hd⟩ := h.path
  unfold spotOf
  rw [htree]
  exact head_spotAlong rfl hd

theorem shows_of_mem_grafts {scopes : Scopes} {graft : Graft} (h : graft ∈ scopes.grafts) :
    scopes.Shows graft.context := by
  obtain ⟨scope, hs, h⟩ := List.mem_flatMap.1 h
  obtain ⟨context, hc, h⟩ := List.mem_flatMap.1 h
  obtain ⟨augment, _, rfl⟩ := List.mem_map.1 h
  exact ⟨scope, hs, hc⟩

def ownerOf (scopes : Scopes) (graft : Graft) : Owner :=
  ((scopes.scope? graft.context.owner).map (fun scope => scope.main.asOwner)).getD default

structure Grafted (scopes : Scopes) (forest : Forest) (graft : Graft) (entry : Entry) (target : Target)
    (grown : List Entry) (forest' : Forest) : Prop where
  targets : Targets scopes forest graft entry target
  grows : Grows scopes (scopes.ownerOf graft) [] graft.context entry.head graft.augment.nodes grown
  names : ((entry.children ++ grown).map Entry.name).Nodup
  result : forest' = Entry.regrowIn (entry.children ++ grown) target.module target.names forest

inductive GraftedAll (scopes : Scopes) : Forest → List Graft → Forest → Prop
  | nil (forest : Forest) : GraftedAll scopes forest [] forest
  | cons {forest forest' forest'' : Forest} {graft : Graft} {rest : List Graft} {entry : Entry} {target : Target}
    {grown : List Entry} (h : Grafted scopes forest graft entry target grown forest')
    (hrest : GraftedAll scopes forest' rest forest'') :
    GraftedAll scopes forest (graft :: rest) forest''

theorem GraftedAll.append {forest forest' forest'' : Forest} {grafts more : List Graft}
    (h : GraftedAll scopes forest grafts forest') (h' : GraftedAll scopes forest' more forest'') :
    GraftedAll scopes forest (grafts ++ more) forest'' := by
  induction h with
  | nil => exact h'
  | cons hstep _ ih => exact .cons hstep (ih h')

def Tidy (forest : Forest) : Prop :=
  ∀ tree ∈ forest, tree.All Entry.Distinct

theorem Tidy.names {forest : Forest} (h : Tidy forest) {entry : Entry} {target : Target}
    (ht : Targets scopes forest graft entry target) : (entry.children.map Entry.name).Nodup := by
  obtain ⟨tree, htree, hd⟩ := ht.path
  have hself := ((h tree (Entry.named?_spec htree).1).descend hd).self
  rw [Entry.names_eq]
  exact hself

theorem made_distinct : scopes.Made Entry.Distinct := by
  intro _ _ _ _ _ _ _ _ _ _ hnames _
  rw [Entry.names_eq] at hnames
  exact hnames

theorem Planted.tidy {scope : Scope} {tree : Entry} (h : scopes.Planted scope tree) :
    tree.All Entry.Distinct := by
  apply h.all made_distinct
  have hnames := h.names
  rw [Entry.names_eq] at hnames
  exact hnames

section

variable {forest forest' : Forest} {entry : Entry} {target : Target} {grown : List Entry}
  {p : EntryHead → List EntryHead → Prop}

theorem Grafted.all (h : Grafted scopes forest graft entry target grown forest') (hp : scopes.Made p)
    (hmore : p entry.head (entry.children.map Entry.head) → p entry.head ((entry.children ++ grown).map Entry.head))
    (hf : ∀ tree ∈ forest, tree.All p) : ∀ tree ∈ forest', tree.All p := by
  obtain ⟨tree, htree, hd⟩ := h.targets.path
  have hentry := (hf tree (Entry.named?_spec htree).1).descend hd
  rw [h.result]
  apply Entry.forall_all_regrowIn hf htree hd
  · exact hmore hentry.self
  · intro c hc
    rcases List.mem_append.1 hc with hc | hc
    · exact hentry.child hc
    · exact h.grows.all hp c hc

theorem Grafted.tidy (h : Grafted scopes forest graft entry target grown forest') (hf : Tidy forest) :
    Tidy forest' := by
  apply h.all made_distinct _ hf
  intro _
  unfold Entry.Distinct
  rw [← Entry.names_eq]
  exact h.names

theorem Grafted.heads (h : Grafted scopes forest graft entry target grown forest') :
    forest'.map Entry.head = forest.map Entry.head := by
  rw [h.result, Entry.heads_regrowIn]

theorem GraftedAll.all {grafts : List Graft} (h : GraftedAll scopes forest grafts forest') (hp : scopes.Made p)
    (hmore : ∀ {forest graft entry target grown forest'}, Grafted scopes forest graft entry target grown forest' →
      p entry.head (entry.children.map Entry.head) → p entry.head ((entry.children ++ grown).map Entry.head))
    (hf : ∀ tree ∈ forest, tree.All p) : ∀ tree ∈ forest', tree.All p := by
  induction h with
  | nil => exact hf
  | cons hstep _ ih => exact ih (hstep.all hp (hmore hstep) hf)

theorem GraftedAll.heads {grafts : List Graft} (h : GraftedAll scopes forest grafts forest') :
    forest'.map Entry.head = forest.map Entry.head := by
  induction h with
  | nil => rfl
  | cons hstep _ ih => rw [ih, hstep.heads]

end

theorem apply_eq (forest : Forest) (graft : Graft) (entry : Entry) (target : Target) (w : Work) :
    scopes.apply forest graft entry target w
      = (let r := scopes.addNodes [] (spotOf forest target) graft.context (scopes.ownerOf graft)
          graft.augment.nodes entry.children (w.note (.augmenting graft.augment.target graft.context.document.name))
        (Entry.regrowIn r.1 target.module target.names forest, r.2)) := rfl

theorem apply_faithful (hc : scopes.Coherent) (forest : Forest) (graft : Graft) (entry : Entry)
    (target : Target) {w : Work} (hw : w.Faithful scopes) :
    let r := scopes.apply forest graft entry target w
    r.2.Faithful scopes ∧ w.problems <+: r.2.problems := by
  have hnote := hw.note (.augmenting graft.augment.target graft.context.document.name)
  rw [apply_eq]
  exact (adds_addNodes _ _ _ _ _ _ _ _).faithful hc hnote

theorem apply_grafted (hc : scopes.Coherent) {forest : Forest} (hf : Tidy forest) {entry : Entry}
    {target : Target} (ht : Targets scopes forest graft entry target) {w : Work} (hw : w.Faithful scopes)
    (hnil : (scopes.apply forest graft entry target w).2.problems = []) :
    ∃ grown, Grafted scopes forest graft entry target grown (scopes.apply forest graft entry target w).1 := by
  have hnote := hw.note (.augmenting graft.augment.target graft.context.document.name)
  rw [apply_eq] at hnil ⊢
  dsimp only at hnil ⊢
  have hadds := adds_addNodes scopes (scopes.ownerOf graft) [] (spotOf forest target)
    graft.context graft.augment.nodes entry.children
    (w.note (.augmenting graft.augment.target graft.context.document.name))
  obtain ⟨grown, hgrown, heq, hnames⟩ := hadds.grows hc hnote hnil (hf.names ht)
  rw [ht.head_spotOf] at hgrown
  rw [heq] at hnames ⊢
  exact ⟨grown, ht, hgrown, hnames, rfl⟩

theorem heads_round (grafts : List Graft) (forest : Forest) (w : Work) :
    (scopes.round grafts forest w).2.1.map Entry.head = forest.map Entry.head := by
  induction grafts generalizing forest w with
  | nil => rfl
  | cons graft rest ih =>
    unfold round
    split
    · apply ih
    · apply ih
    · dsimp only
      rw [ih, apply_eq]
      apply Entry.heads_regrowIn

theorem heads_graftAll (grafts : List Graft) (forest : Forest) (w : Work) :
    (scopes.graftAll grafts forest w).1.map Entry.head = forest.map Entry.head := by
  fun_induction graftAll scopes grafts forest w with
  | case1 grafts forest w r hlt ih => rw [ih, heads_round]
  | case2 grafts forest w r hlt => apply heads_round

theorem heads_forest (scopes : Scopes) :
    scopes.forest.1.map Entry.head = scopes.map (fun scope => scope.main.head) := by
  unfold Scopes.forest
  dsimp only
  rw [heads_graftAll, heads_buildAll]

theorem round_faithful (hc : scopes.Coherent) (grafts : List Graft) (forest : Forest) {w : Work}
    (hw : w.Faithful scopes) :
    let r := scopes.round grafts forest w
    r.2.2.Faithful scopes ∧ w.problems <+: r.2.2.problems := by
  induction grafts generalizing forest w with
  | nil => exact ⟨hw, List.prefix_refl _⟩
  | cons graft rest ih =>
    unfold round
    split
    · next finding _ =>
      obtain ⟨hw', hlater⟩ := ih forest (hw.report graft.context finding)
      exact ⟨hw', (List.prefix_append _ _).trans hlater⟩
    · exact ih forest hw
    · next entry target _ =>
      obtain ⟨hw₁, hlater₁⟩ := apply_faithful hc forest graft entry target hw
      obtain ⟨hw', hlater⟩ := ih (scopes.apply forest graft entry target w).1 hw₁
      exact ⟨hw', hlater₁.trans hlater⟩

theorem round_grafted (hc : scopes.Coherent) (grafts : List Graft) {forest : Forest} (hf : Tidy forest) {w : Work}
    (hw : w.Faithful scopes) (hnil : (scopes.round grafts forest w).2.2.problems = []) :
    Tidy (scopes.round grafts forest w).2.1
      ∧ ∃ done, grafts.Perm (done ++ (scopes.round grafts forest w).1)
        ∧ GraftedAll scopes forest done (scopes.round grafts forest w).2.1 := by
  induction grafts generalizing forest w with
  | nil => exact ⟨hf, [], .nil, .nil forest⟩
  | cons graft rest ih =>
    unfold round at hnil ⊢
    split at hnil
    · next finding _ =>
      have hlater := (round_faithful hc rest forest (hw.report graft.context finding)).2
      exact (Work.problems_ne_nil_of_report hlater hnil).elim
    · -- what waits is kept in front of what the rest of the round keeps
      obtain ⟨htidy, done, hperm, hgrafted⟩ := ih hf hw hnil
      refine ⟨htidy, done, ?_, hgrafted⟩
      exact (hperm.cons graft).trans List.perm_middle.symm
    · next entry target htarget =>
      rw [target_eq_some_iff] at htarget
      have hw₁ := (apply_faithful hc forest graft entry target hw).1
      have hlater := (round_faithful hc rest (scopes.apply forest graft entry target w).1 hw₁).2
      dsimp only at hnil ⊢
      rw [hnil, List.prefix_nil] at hlater
      obtain ⟨grown, hstep⟩ := apply_grafted hc hf htarget hw hlater
      obtain ⟨htidy, done, hperm, hrest⟩ := ih (hstep.tidy hf) hw₁ hnil
      exact ⟨htidy, graft :: done, hperm.cons graft, .cons hstep hrest⟩

def reportWaiting (waiting : List Graft) (w : Work) : Work :=
  waiting.foldl (fun w g => w.report g.context (.targetNotFound g.augment.target)) w

theorem reportWaiting_spec (waiting : List Graft) (w : Work) :
    (reportWaiting waiting w).types = w.types
      ∧ (reportWaiting waiting w).problems
        = w.problems ++ waiting.map (fun g => g.context.problem (.targetNotFound g.augment.target)) := by
  unfold reportWaiting
  induction waiting generalizing w with
  | nil => simp
  | cons graft rest ih =>
    obtain ⟨htypes, hproblems⟩ := ih (w.report graft.context (.targetNotFound graft.augment.target))
    rw [List.foldl_cons, htypes, hproblems]
    exact ⟨rfl, by simp [Work.report]⟩

theorem graftAll_faithful (hc : scopes.Coherent) (grafts : List Graft) (forest : Forest) {w : Work}
    (hw : w.Faithful scopes) :
    let r := scopes.graftAll grafts forest w
    r.2.Faithful scopes ∧ w.problems <+: r.2.problems := by
  fun_induction graftAll scopes grafts forest w with
  | case1 grafts forest w r hlt ih =>
    obtain ⟨hw₁, hlater₁⟩ := round_faithful hc grafts forest hw
    obtain ⟨hw', hlater⟩ := ih hw₁
    exact ⟨hw', hlater₁.trans hlater⟩
  | case2 grafts forest w r hlt =>
    obtain ⟨hw₁, hlater₁⟩ := round_faithful hc grafts forest hw
    obtain ⟨htypes, hproblems⟩ := reportWaiting_spec r.1 r.2.2
    have hlater : r.2.2.problems <+: (reportWaiting r.1 r.2.2).problems := by
      rw [hproblems]
      exact List.prefix_append _ _
    exact ⟨hw₁.of_problems htypes hlater, hlater₁.trans hlater⟩

theorem graftAll_grafted (hc : scopes.Coherent) (grafts : List Graft) {forest : Forest} (hf : Tidy forest)
    {w : Work} (hw : w.Faithful scopes) (hnil : (scopes.graftAll grafts forest w).2.problems = []) :
    ∃ order, order.Perm grafts ∧ GraftedAll scopes forest order (scopes.graftAll grafts forest w).1 := by
  fun_induction graftAll scopes grafts forest w with
  | case1 grafts forest w r hlt ih =>
    have hw₁ := (round_faithful hc grafts forest hw).1
    have hlater := (graftAll_faithful hc r.1 r.2.1 hw₁).2
    rw [hnil, List.prefix_nil] at hlater
    obtain ⟨htidy, done, hperm, hgrafted⟩ := round_grafted hc grafts hf hw hlater
    obtain ⟨order, horder, hrest⟩ := ih htidy hw₁ hnil
    refine ⟨done ++ order, ?_, hgrafted.append hrest⟩
    exact (List.Perm.append_left done horder).trans hperm.symm
  | case2 grafts forest w r hlt =>
    -- the augments that wait are reported, so there are none, and there were none before
    change (reportWaiting r.1 r.2.2).problems = [] at hnil
    rw [(reportWaiting_spec r.1 r.2.2).2, List.append_eq_nil_iff, List.map_eq_nil_iff] at hnil
    obtain ⟨_, done, hperm, hgrafted⟩ := round_grafted hc grafts hf hw hnil.1
    refine ⟨done, ?_, hgrafted⟩
    change grafts.Perm (done ++ r.1) at hperm
    rw [hnil.2, List.append_nil] at hperm
    exact hperm.symm

def Flourishes (scopes : Scopes) (forest : Forest) : Prop :=
  ∃ trees order, List.Forall₂ scopes.Planted scopes trees ∧ order.Perm scopes.grafts
    ∧ GraftedAll scopes trees order forest

theorem forest_of_planted (hc : scopes.Coherent) {trees : Forest} (h : List.Forall₂ scopes.Planted scopes trees)
    (hgrafts : scopes.grafts = []) : scopes.forest.1 = trees ∧ scopes.forest.2.problems = [] := by
  obtain ⟨htrees, _, hnil⟩ := buildAll_of_planted hc h (Work.faithful_empty scopes) rfl (fun _ h => h)
  unfold Scopes.forest
  dsimp only
  rw [hgrafts, graftAll, round]
  exact ⟨htrees, hnil⟩

theorem tidy_of_planted {list : List Scope} {trees : List Entry} (h : List.Forall₂ scopes.Planted list trees) :
    Tidy trees := by
  induction h with
  | nil => intro tree htree; cases htree
  | cons hplanted _ ih =>
    intro tree htree
    rcases List.mem_cons.1 htree with rfl | htree
    · exact hplanted.tidy
    · exact ih tree htree

theorem flourishes_forest (hc : scopes.Coherent) (hnil : scopes.forest.2.problems = []) :
    scopes.Flourishes scopes.forest.1 := by
  unfold Scopes.forest at hnil ⊢
  obtain ⟨hw, _, hplanted⟩ := buildAll_spec hc (Work.faithful_empty scopes) scopes (fun _ h => h)
  generalize scopes.buildAll scopes (fun _ h => h) .empty = built at hw hplanted hnil ⊢
  obtain ⟨trees, w⟩ := built
  dsimp only at hw hplanted hnil ⊢
  have hlater := (graftAll_faithful hc scopes.grafts trees hw).2
  rw [hnil, List.prefix_nil] at hlater
  have htrees := hplanted hlater
  obtain ⟨order, horder, hgrafted⟩ := graftAll_grafted hc scopes.grafts (tidy_of_planted htrees) hw hnil
  exact ⟨trees, order, htrees, horder, hgrafted⟩

theorem Flourishes.all {p : EntryHead → List EntryHead → Prop} (hp : scopes.Made p)
    (hroot : ∀ {scope tree}, scopes.Planted scope tree → p tree.head (tree.children.map Entry.head))
    (hmore : ∀ {forest graft entry target grown forest'}, Grafted scopes forest graft entry target grown forest' →
      p entry.head (entry.children.map Entry.head) → p entry.head ((entry.children ++ grown).map Entry.head))
    {forest : Forest} (h : scopes.Flourishes forest) : ∀ tree ∈ forest, tree.All p := by
  obtain ⟨trees, order, hplanted, _, hgrafted⟩ := h
  apply hgrafted.all hp hmore
  intro tree htree
  obtain ⟨scope, hscope⟩ := exists_planted hplanted htree
  exact hscope.all hp (hroot hscope)

theorem Flourishes.heads {forest : Forest} (h : scopes.Flourishes forest) :
    forest.map Entry.head = scopes.map (fun scope => scope.main.head) := by
  obtain ⟨trees, order, hplanted, _, hgrafted⟩ := h
  rw [hgrafted.heads, heads_of_planted hplanted]

end Yang.Scopes

import Mathlib.Data.List.Forall2
import Yang.Proofs.Tree.Grows

/-!
This module contains the trees that modules have before augments are grafted onto them. The trees of all modules are
built without a problem exactly when the nodes of every module grow into entries of different names and every derived
type stands for a type.
-/

namespace Yang.Scopes

inductive GrowsAll (scopes : Scopes) (owner : Owner) (parent : EntryHead) : List Context → List Entry → Prop
  | nil : GrowsAll scopes owner parent [] []
  | cons {context rest grown more} (h : Grows scopes owner [] context parent context.document.body.nodes grown)
    (hmore : GrowsAll scopes owner parent rest more) :
    GrowsAll scopes owner parent (context :: rest) (grown ++ more)

structure Planted (scopes : Scopes) (scope : Scope) (tree : Entry) : Prop where
  head : tree.head = scope.main.head
  grown : GrowsAll scopes scope.main.asOwner scope.main.head scope.contexts tree.children
  names : (tree.children.map Entry.name).Nodup
  types : ∀ l ∈ scope.firsts Typedef, ∃ type, scopes.Defines l type

variable {scopes : Scopes} {owner : Owner}

theorem exists_planted {list : List Scope} {trees : List Entry} (h : List.Forall₂ scopes.Planted list trees)
    {tree : Entry} (ht : tree ∈ trees) : ∃ scope, scopes.Planted scope tree := by
  induction h with
  | nil => cases ht
  | cons hplanted _ ih =>
    rcases List.mem_cons.1 ht with rfl | ht
    · exact ⟨_, hplanted⟩
    · exact ih ht

theorem heads_of_planted {list : List Scope} {trees : List Entry} (h : List.Forall₂ scopes.Planted list trees) :
    trees.map Entry.head = list.map (fun scope => scope.main.head) := by
  induction h with
  | nil => rfl
  | cons hplanted _ ih => rw [List.map_cons, List.map_cons, ih, hplanted.head]

theorem GrowsAll.all {p : EntryHead → List EntryHead → Prop} (hp : scopes.Made p) {parent : EntryHead}
    {contexts : List Context} {grown : List Entry} (h : GrowsAll scopes owner parent contexts grown) :
    ∀ e ∈ grown, e.All p := by
  induction h with
  | nil =>
    intro e he
    cases he
  | cons hgrows _ ih =>
    intro e he
    rcases List.mem_append.1 he with he | he
    · exact hgrows.all hp e he
    · exact ih e he

theorem Planted.all {p : EntryHead → List EntryHead → Prop} (hp : scopes.Made p) {scope : Scope} {tree : Entry}
    (h : scopes.Planted scope tree) (hroot : p tree.head (tree.children.map Entry.head)) : tree.All p := by
  obtain ⟨head, children⟩ := tree
  rw [Entry.all_mk_iff]
  exact ⟨hroot, h.grown.all hp⟩

theorem addDocuments_spec (hc : scopes.Coherent) (owner : Owner) {w : Work} (hw : w.Faithful scopes) (spot : Spot)
    (contexts : List Context) (children : List Entry) :
    let r := scopes.addDocuments spot owner contexts children w
    r.2.Faithful scopes ∧ w.problems <+: r.2.problems
      ∧ (r.2.problems = [] → (children.map Entry.name).Nodup →
        ∃ grown, GrowsAll scopes owner spot.head contexts grown ∧ r.1 = children ++ grown
          ∧ (r.1.map Entry.name).Nodup) := by
  induction contexts generalizing children w with
  | nil =>
    refine ⟨hw, List.prefix_refl _, fun _ hnames => ⟨[], .nil, ?_, hnames⟩⟩
    rw [addDocuments, List.append_nil]
  | cons context rest ih =>
    have hadds := adds_addNodes scopes owner [] spot context
      context.document.body.nodes children w
    obtain ⟨hw₁, hlater₁⟩ := hadds.faithful hc hw
    unfold addDocuments
    generalize scopes.addNodes [] spot context owner context.document.body.nodes children w = added
      at hadds hw₁ hlater₁ ⊢
    obtain ⟨children₁, w₁⟩ := added
    dsimp only at hadds hw₁ hlater₁ ⊢
    obtain ⟨hw₂, hlater₂, hgrows⟩ := ih hw₁ children₁
    refine ⟨hw₂, hlater₁.trans hlater₂, fun hnil hnames => ?_⟩
    rw [hnil, List.prefix_nil] at hlater₂
    obtain ⟨grown, hgrown, rfl, hnames₁⟩ := hadds.grows hc hw hlater₂ hnames
    obtain ⟨more, hmore, heq, hnames₂⟩ := hgrows hnil hnames₁
    exact ⟨grown ++ more, .cons hgrown hmore, by rw [heq, List.append_assoc], hnames₂⟩

theorem GrowsAll.addDocuments (hc : scopes.Coherent) (spot : Spot) {contexts : List Context}
    {grown : List Entry} (h : GrowsAll scopes owner spot.head contexts grown) (children : List Entry) {w : Work}
    (hw : w.Faithful scopes) (hnil : w.problems = []) (hnames : ((children ++ grown).map Entry.name).Nodup) :
    let r := scopes.addDocuments spot owner contexts children w
    r.1 = children ++ grown ∧ r.2.Faithful scopes ∧ r.2.problems = [] := by
  induction contexts generalizing children w grown with
  | nil =>
    cases h
    exact ⟨(List.append_nil _).symm, hw, hnil⟩
  | cons context rest ih =>
    cases h with
    | @cons _ _ grown more hgrown hmore =>
      rw [← List.append_assoc] at hnames ⊢
      have hnames₁ := hnames
      rw [List.map_append, List.nodup_append] at hnames₁
      obtain ⟨w₁, hadds, hw₁, hnil₁⟩ := hgrown.adds hc rfl hw hnil hnames₁.1
      unfold Scopes.addDocuments
      rw [hadds.eq_addNodes]
      exact ih hmore (children ++ grown) hw₁ hnil₁ hnames

theorem settle_spec (hc : scopes.Coherent) {w : Work} (hw : w.Faithful scopes) (found : List (Located Typedef))
    (isThere : ∀ l ∈ found, l ∈ scopes.definitions Typedef) (hholds : ∀ l ∈ found, scopes.Holds l) :
    let r := scopes.settle found isThere w
    r.Faithful scopes ∧ w.problems <+: r.problems
      ∧ (r.problems = [] ↔ w.problems = [] ∧ ∀ l ∈ found, ∃ type, scopes.Defines l type) := by
  induction found generalizing w with
  | nil =>
    refine ⟨hw, List.prefix_refl _, fun h => ⟨h, fun l hl => nomatch hl⟩, fun h => h.1⟩
  | cons l rest ih =>
    unfold settle
    have hs := settles_typeOfTypedef hc hw (isThere l List.mem_cons_self) (hholds l List.mem_cons_self)
    generalize scopes.typeOfTypedef [] l (isThere l List.mem_cons_self) w = settled at hs ⊢
    obtain ⟨type, w₁⟩ := settled
    obtain ⟨hresult, hw₁, hlater₁, hsilent, hloud⟩ := hs
    dsimp only at hresult hw₁ hlater₁ hsilent hloud ⊢
    obtain ⟨hw₂, hlater₂, hiff⟩ := ih hw₁ (fun k hk => isThere k (List.mem_cons_of_mem _ hk))
      (fun k hk => hholds k (List.mem_cons_of_mem _ hk))
    refine ⟨hw₂, hlater₁.trans hlater₂, ?_⟩
    rw [hiff, List.forall_mem_cons]
    constructor
    · rintro ⟨hnil, hrest⟩
      cases type with
      | none => exact (hloud rfl hnil).elim
      | some t =>
        rw [hsilent rfl] at hnil
        exact ⟨hnil, ⟨t, (hresult t).1 rfl⟩, hrest⟩
    · rintro ⟨hnil, ⟨t, ht⟩, hrest⟩
      rw [hsilent ((hresult t).2 ht)]
      exact ⟨hnil, hrest⟩

theorem build_spec (hc : scopes.Coherent) {w : Work} (hw : w.Faithful scopes) {scope : Scope}
    (isThere : scope ∈ scopes) :
    let r := scopes.build scope isThere w
    r.2.Faithful scopes ∧ w.problems <+: r.2.problems
      ∧ (r.2.problems = [] → scopes.Planted scope r.1) := by
  unfold build
  dsimp only
  obtain ⟨hw₁, hlater₁, hgrows⟩ := addDocuments_spec hc scope.main.asOwner hw ⟨scope.main.head, []⟩
    scope.contexts []
  generalize scopes.addDocuments ⟨scope.main.head, []⟩ scope.main.asOwner scope.contexts [] w = added
    at hw₁ hlater₁ hgrows ⊢
  obtain ⟨children, w₁⟩ := added
  dsimp only at hw₁ hlater₁ hgrows ⊢
  obtain ⟨hw₂, hlater₂, hiff⟩ := settle_spec hc hw₁ (scope.firsts Typedef)
    (fun _ h => mem_definitions_of_mem_firsts isThere h) (fun _ h => hc.holds_of_mem_firsts isThere h)
  refine ⟨hw₂, hlater₁.trans hlater₂, fun hnil => ?_⟩
  obtain ⟨hnil₁, htypes⟩ := hiff.1 hnil
  obtain ⟨grown, hgrown, heq, hnames⟩ := hgrows hnil₁ List.nodup_nil
  rw [List.nil_append] at heq
  subst heq
  exact ⟨rfl, hgrown, hnames, htypes⟩

theorem Planted.build (hc : scopes.Coherent) {scope : Scope} {tree : Entry} (h : scopes.Planted scope tree)
    {w : Work} (hw : w.Faithful scopes) (hnil : w.problems = []) (isThere : scope ∈ scopes) :
    let r := scopes.build scope isThere w
    r.1 = tree ∧ r.2.Faithful scopes ∧ r.2.problems = [] := by
  obtain ⟨head, children⟩ := tree
  obtain ⟨hhead, hgrown, hnames, htypes⟩ := h
  dsimp only [Entry.head, Entry.children] at hhead hgrown hnames
  subst hhead
  unfold Scopes.build
  dsimp only
  obtain ⟨heq, hw₁, hnil₁⟩ := GrowsAll.addDocuments hc ⟨scope.main.head, []⟩ hgrown []
    hw hnil hnames
  generalize scopes.addDocuments ⟨scope.main.head, []⟩ scope.main.asOwner scope.contexts [] w = added
    at heq hw₁ hnil₁ ⊢
  obtain ⟨children₁, w₁⟩ := added
  dsimp only at heq hw₁ hnil₁ ⊢
  obtain ⟨hw₂, _, hiff⟩ := settle_spec hc hw₁ (scope.firsts Typedef)
    (fun _ h => mem_definitions_of_mem_firsts isThere h) (fun _ h => hc.holds_of_mem_firsts isThere h)
  exact ⟨by rw [heq, List.nil_append], hw₂, hiff.2 ⟨hnil₁, htypes⟩⟩

theorem heads_buildAll (list : List Scope) (isThere : ∀ scope ∈ list, scope ∈ scopes) (w : Work) :
    (scopes.buildAll list isThere w).1.map Entry.head = list.map (fun scope => scope.main.head) := by
  induction list generalizing w with
  | nil => rfl
  | cons scope rest ih =>
    unfold buildAll
    dsimp only
    rw [List.map_cons, List.map_cons, ih]
    rfl

theorem buildAll_spec (hc : scopes.Coherent) {w : Work} (hw : w.Faithful scopes) (list : List Scope)
    (isThere : ∀ scope ∈ list, scope ∈ scopes) :
    let r := scopes.buildAll list isThere w
    r.2.Faithful scopes ∧ w.problems <+: r.2.problems
      ∧ (r.2.problems = [] → List.Forall₂ scopes.Planted list r.1) := by
  induction list generalizing w with
  | nil => exact ⟨hw, List.prefix_refl _, fun _ => .nil⟩
  | cons scope rest ih =>
    unfold buildAll
    obtain ⟨hw₁, hlater₁, hplanted⟩ := build_spec hc hw (isThere scope List.mem_cons_self)
    generalize scopes.build scope (isThere scope List.mem_cons_self) w = built at hw₁ hlater₁ hplanted ⊢
    obtain ⟨tree, w₁⟩ := built
    dsimp only at hw₁ hlater₁ hplanted ⊢
    obtain ⟨hw₂, hlater₂, htrees⟩ := ih hw₁ (fun s hs => isThere s (List.mem_cons_of_mem _ hs))
    refine ⟨hw₂, hlater₁.trans hlater₂, fun hnil => ?_⟩
    rw [hnil, List.prefix_nil] at hlater₂
    exact .cons (hplanted hlater₂) (htrees hnil)

theorem buildAll_of_planted (hc : scopes.Coherent) {list : List Scope} {trees : List Entry}
    (h : List.Forall₂ scopes.Planted list trees) {w : Work} (hw : w.Faithful scopes) (hnil : w.problems = [])
    (isThere : ∀ scope ∈ list, scope ∈ scopes) :
    let r := scopes.buildAll list isThere w
    r.1 = trees ∧ r.2.Faithful scopes ∧ r.2.problems = [] := by
  induction h generalizing w with
  | nil => exact ⟨rfl, hw, hnil⟩
  | @cons scope tree rest trees hplanted _ ih =>
    unfold buildAll
    obtain ⟨heq, hw₁, hnil₁⟩ := hplanted.build hc hw hnil (isThere scope List.mem_cons_self)
    generalize scopes.build scope (isThere scope List.mem_cons_self) w = built at heq hw₁ hnil₁ ⊢
    obtain ⟨tree', w₁⟩ := built
    dsimp only at heq hw₁ hnil₁ ⊢
    obtain ⟨heq', hw₂, hnil₂⟩ := ih hw₁ hnil₁ (fun s hs => isThere s (List.mem_cons_of_mem _ hs))
    exact ⟨by rw [heq, heq'], hw₂, hnil₂⟩

end Yang.Scopes

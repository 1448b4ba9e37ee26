import Yang.Proofs.Entry.Regrow
import Yang.Proofs.Tree.Adds
import Yang.Proofs.Typing.Meaning

/-!
This module contains what nodes grow into when nothing is wrong with them: entries that depend only on the nodes, the
document that they are read in and the entry above them, but not on the work before them. Nodes are added without a
problem exactly when they grow into entries that have different names among each other and among the children that
were there before.
-/

namespace Yang

namespace Scopes

def HasType (scopes : Scopes) (context : Context) (node : Node) (type : Option ResolvedType) : Prop :=
  match node.typed? with
  | none => type = none
  | some (reference, declared) => ∃ t, type = some t ∧ scopes.Denotes context reference declared t

theorem hasType_of_typed?_eq_none {scopes : Scopes} {context : Context} {node : Node}
    (h : node.typed? = none) (type : Option ResolvedType) :
    scopes.HasType context node type ↔ type = none := by
  unfold HasType
  rw [h]

theorem hasType_of_typed?_eq_some {scopes : Scopes} {context : Context} {node : Node} {reference : String}
    {declared : Restrictions} (h : node.typed? = some (reference, declared)) (type : Option ResolvedType) :
    scopes.HasType context node type
      ↔ ∃ t, type = some t ∧ scopes.Denotes context reference declared t := by
  unfold HasType
  rw [h]

structure Fits (node : Node) (parent : EntryHead) : Prop where
  noUses : node.kind ≠ .uses
  choice : node.kind = .case ↔ parent.kind = .choice
  access : ¬ (node.config = some true ∧ parent.config = false)

/--
The entries that nodes below an entry grow into when nothing is wrong with them.
-/
inductive Grows (scopes : Scopes) (owner : Owner) :
    List DefinitionKey → Context → EntryHead → List Node → List Entry → Prop
  | nil {inside context parent} : Grows scopes owner inside context parent [] []
  | uses {inside context parent head rest grown more} {found : Located Grouping}
    (h : scopes.resolve context head.grouping = .ok found) (hout : inside.contains found.key = false)
    (hgrown : Grows scopes owner (found.key :: inside) found.context parent found.definition.nodes grown)
    (hmore : Grows scopes owner inside context parent rest more) :
    Grows scopes owner inside context parent (.uses head :: rest) (grown ++ more)
  | node {inside context parent node rest type inner more} (hfits : Fits node parent)
    (htype : scopes.HasType context node type)
    (hinner : Grows scopes owner inside context (node.makeHead owner parent.config type) node.children inner)
    (hnames : (inner.map Entry.name).Nodup)
    (hfindings : node.findings (node.makeHead owner parent.config type) inner = [])
    (hmore : Grows scopes owner inside context parent rest more) :
    Grows scopes owner inside context parent (node :: rest)
      (.mk (node.makeHead owner parent.config type) inner :: more)

def Made (scopes : Scopes) (p : EntryHead → List EntryHead → Prop) : Prop :=
  ∀ {owner inside context parent node type inner}, Fits node parent → scopes.HasType context node type →
    Grows scopes owner inside context (node.makeHead owner parent.config type) node.children inner →
    (inner.map Entry.name).Nodup → node.findings (node.makeHead owner parent.config type) inner = [] →
    p (node.makeHead owner parent.config type) (inner.map Entry.head)

theorem Grows.all {scopes : Scopes} {p : EntryHead → List EntryHead → Prop} (hp : scopes.Made p) {owner : Owner}
    {inside : List DefinitionKey} {context : Context} {parent : EntryHead} {nodes : List Node} {grown : List Entry}
    (h : Grows scopes owner inside context parent nodes grown) : ∀ e ∈ grown, e.All p := by
  induction h with
  | nil =>
    intro e he
    cases he
  | uses _ _ _ _ ihgrown ihmore =>
    intro e he
    rcases List.mem_append.1 he with he | he
    · exact ihgrown e he
    · exact ihmore e he
  | node hfits htype hinner hnames hfindings _ ihinner ihmore =>
    intro e he
    rcases List.mem_cons.1 he with rfl | he
    · rw [Entry.all_mk_iff]
      exact ⟨hp hfits htype hinner hnames hfindings, ihinner⟩
    · exact ihmore e he

end Scopes

theorem Node.name_makeHead (node : Node) (owner : Owner) (writable : Bool) (type : Option ResolvedType) :
    (node.makeHead owner writable type).name = node.name := by
  cases node <;> rfl

theorem Scopes.name_made (node : Node) (owner : Owner) (writable : Bool) (type : Option ResolvedType)
    (inner : List Entry) : (Entry.mk (node.makeHead owner writable type) inner).name = node.name :=
  node.name_makeHead owner writable type

theorem Node.misplaced?_eq_none_iff {node : Node} {spot : Spot} {siblings : List Entry} :
    node.misplaced? spot siblings = none
      ↔ (node.kind = .case ↔ spot.head.kind = .choice) ∧ node.name ∉ siblings.map Entry.name := by
  rw [← Entry.named?_eq_none_iff]
  unfold Node.misplaced?
  by_cases hcase : node.kind = .case <;> by_cases hchoice : spot.head.kind = .choice <;>
    cases hnamed : Entry.named? node.name siblings <;> simp [hcase, hchoice]

namespace Scopes

variable {scopes : Scopes} {owner : Owner}

theorem makeHead_spec (hc : scopes.Coherent) (owner : Owner) {w : Work} (hw : w.Faithful scopes) (spot : Spot)
    (context : Context) (node : Node) :
    let r := scopes.makeHead spot context owner node w
    r.2.Faithful scopes ∧ w.problems <+: r.2.problems
      ∧ ∃ type, r.1 = node.makeHead owner spot.head.config type
        ∧ (r.2.problems = [] → scopes.HasType context node type
          ∧ ¬ (node.config = some true ∧ spot.head.config = false)) := by
  unfold makeHead
  dsimp only
  have hreport : w.problems
      <+: (w.report context (.writableUnderState node.kind node.name)).problems := List.prefix_append _ _
  generalize hw₁ : (if node.config = some true ∧ spot.head.config = false then
    w.report context (.writableUnderState node.kind node.name) else w) = w₁
  have hstart : w₁.Faithful scopes ∧ w.problems <+: w₁.problems
      ∧ (w₁.problems = [] → ¬ (node.config = some true ∧ spot.head.config = false)) := by
    split at hw₁
    · subst hw₁
      refine ⟨hw.of_problems rfl hreport, hreport, fun hnil => ?_⟩
      exact (w.problems_report_ne_nil _ _ hnil).elim
    · next hno =>
      subst hw₁
      exact ⟨hw, List.prefix_refl _, fun _ => hno⟩
  obtain ⟨hfaithful, hlater, haccess⟩ := hstart
  split
  · next reference declared heq =>
    have hs := settles_typeOf hc hfaithful context reference declared
    generalize scopes.typeOf [] context reference declared w₁ = r at hs
    obtain ⟨type, w₂⟩ := r
    refine ⟨hs.faithful, hlater.trans hs.later, type, rfl, fun hnil => ?_⟩
    have hlater' := hs.later
    dsimp only at hnil hlater' ⊢
    rw [hnil, List.prefix_nil] at hlater'
    refine ⟨?_, haccess hlater'⟩
    cases type with
    | none => exact (hs.loud rfl hnil).elim
    | some t => exact (hasType_of_typed?_eq_some heq _).2 ⟨t, rfl, (hs.result t).1 rfl⟩
  · next heq =>
    refine ⟨hfaithful, hlater, none, rfl, fun hnil => ⟨?_, haccess hnil⟩⟩
    exact (hasType_of_typed?_eq_none heq _).2 rfl

theorem makeHead_of_hasType (hc : scopes.Coherent) (owner : Owner) {w : Work} (hw : w.Faithful scopes)
    (hnil : w.problems = []) {spot : Spot} {context : Context} {node : Node} {type : Option ResolvedType}
    (hfits : Fits node spot.head) (htype : scopes.HasType context node type) :
    let r := scopes.makeHead spot context owner node w
    r.1 = node.makeHead owner spot.head.config type ∧ r.2.Faithful scopes ∧ r.2.problems = [] := by
  unfold makeHead
  dsimp only
  rw [if_neg hfits.access]
  cases heq : node.typed? with
  | none =>
    rw [(hasType_of_typed?_eq_none heq _).1 htype]
    exact ⟨rfl, hw, hnil⟩
  | some typed =>
    obtain ⟨reference, declared⟩ := typed
    obtain ⟨t, rfl, ht⟩ := (hasType_of_typed?_eq_some heq _).1 htype
    dsimp only
    have hs := settles_typeOf hc hw context reference declared
    have hresult := (hs.result t).2 ht
    rw [hresult]
    exact ⟨rfl, hs.faithful, (hs.silent hresult).trans hnil⟩

theorem Adds.faithful (hc : scopes.Coherent) {inside : List DefinitionKey} {spot : Spot} {context : Context}
    {nodes : List Node} {children children' : List Entry} {w w' : Work}
    (h : Adds scopes owner inside spot context nodes children w children' w') (hw : w.Faithful scopes) :
    w'.Faithful scopes ∧ w.problems <+: w'.problems := by
  induction h with
  | nil => exact ⟨hw, List.prefix_refl _⟩
  | unresolved _ _ ih =>
    obtain ⟨hfaithful, hlater⟩ := ih (hw.report _ _)
    exact ⟨hfaithful, (List.prefix_append _ _).trans hlater⟩
  | recursive _ _ _ ih =>
    obtain ⟨hfaithful, hlater⟩ := ih (hw.report _ _)
    exact ⟨hfaithful, (List.prefix_append _ _).trans hlater⟩
  | expanded _ _ _ _ ihinner ihmore =>
    obtain ⟨hfaithful₁, hlater₁⟩ := ihinner hw
    obtain ⟨hfaithful, hlater⟩ := ihmore hfaithful₁
    exact ⟨hfaithful, hlater₁.trans hlater⟩
  | misplaced _ _ _ ih =>
    obtain ⟨hfaithful, hlater⟩ := ih (hw.report _ _)
    exact ⟨hfaithful, (List.prefix_append _ _).trans hlater⟩
  | @placed inside spot context node rest children w head w₁ inner w₂ children' w' _ _ hhead _ _ ihinner ihmore =>
    obtain ⟨hfaithful₁, hlater₁, _⟩ := makeHead_spec hc owner hw spot context node
    rw [hhead] at hfaithful₁ hlater₁
    obtain ⟨hfaithful₂, hlater₂⟩ := ihinner hfaithful₁
    have hall := hfaithful₂.reportAll context (node.findings head inner)
    obtain ⟨hfaithful, hlater⟩ := ihmore hall
    exact ⟨hfaithful, ((hlater₁.trans hlater₂).trans (List.prefix_append _ _)).trans hlater⟩

theorem Adds.grows (hc : scopes.Coherent) {inside : List DefinitionKey} {spot : Spot} {context : Context}
    {nodes : List Node} {children children' : List Entry} {w w' : Work}
    (h : Adds scopes owner inside spot context nodes children w children' w') (hw : w.Faithful scopes)
    (hnil : w'.problems = []) (hnames : (children.map Entry.name).Nodup) :
    ∃ grown, Grows scopes owner inside context spot.head nodes grown ∧ children' = children ++ grown
      ∧ (children'.map Entry.name).Nodup := by
  induction h with
  | nil => exact ⟨[], .nil, (List.append_nil _).symm, hnames⟩
  | unresolved _ hmore => exact (Work.problems_ne_nil_of_report (hmore.faithful hc (hw.report _ _)).2 hnil).elim
  | recursive _ _ hmore => exact (Work.problems_ne_nil_of_report (hmore.faithful hc (hw.report _ _)).2 hnil).elim
  | misplaced _ _ hmore => exact (Work.problems_ne_nil_of_report (hmore.faithful hc (hw.report _ _)).2 hnil).elim
  | expanded h hout hinner hmore ihinner ihmore =>
    obtain ⟨hfaithful₁, _⟩ := hinner.faithful hc hw
    obtain ⟨_, hlater⟩ := hmore.faithful hc hfaithful₁
    rw [hnil, List.prefix_nil] at hlater
    obtain ⟨grown, hgrown, rfl, hnames₁⟩ := ihinner hw hlater hnames
    obtain ⟨more, hrest, rfl, hnames'⟩ := ihmore hfaithful₁ hnil hnames₁
    exact ⟨grown ++ more, .uses h hout hgrown hrest, List.append_assoc _ _ _, hnames'⟩
  | @placed inside spot context node rest children w head w₁ inner w₂ children' w' hkind hplace hhead hinner hmore
      ihinner ihmore =>
    obtain ⟨hfaithful₁, _, type, hmade, htyped⟩ := makeHead_spec hc owner hw spot context node
    rw [hhead] at hfaithful₁ hmade htyped
    obtain ⟨hfaithful₂, hlater₂⟩ := hinner.faithful hc hfaithful₁
    have hall := hfaithful₂.reportAll context (node.findings head inner)
    -- the work was without problems all along
    have hnone := (hmore.faithful hc hall).2
    rw [hnil, List.prefix_nil] at hnone
    unfold Work.reportAll at hnone
    dsimp only at hnone hmade htyped
    rw [List.append_eq_nil_iff, List.map_eq_nil_iff] at hnone
    rw [hnone.1, List.prefix_nil] at hlater₂
    obtain ⟨htype, haccess⟩ := htyped hlater₂
    obtain ⟨hchoice, hnew⟩ := Node.misplaced?_eq_none_iff.1 hplace
    obtain ⟨grown, hgrown, heq, hnames₁⟩ := ihinner hfaithful₁ hnone.1 List.nodup_nil
    rw [List.nil_append] at heq
    subst heq hmade
    have hname := name_made node owner spot.head.config type inner
    rw [← hname] at hnew
    obtain ⟨more, hrest, rfl, hnames'⟩ := ihmore hall hnil (Entry.nodup_names_concat hnames hnew)
    refine ⟨.mk (node.makeHead owner spot.head.config type) inner :: more, ?_, by simp, hnames'⟩
    exact .node ⟨hkind, hchoice, haccess⟩ htype hgrown hnames₁ hnone.2 hrest

theorem Grows.adds (hc : scopes.Coherent) {inside : List DefinitionKey} {context : Context}
    {parent : EntryHead} {nodes : List Node} {grown : List Entry}
    (h : Grows scopes owner inside context parent nodes grown) {spot : Spot} (hspot : spot.head = parent)
    {children : List Entry} {w : Work} (hw : w.Faithful scopes) (hnil : w.problems = [])
    (hnames : ((children ++ grown).map Entry.name).Nodup) :
    ∃ w', Adds scopes owner inside spot context nodes children w (children ++ grown) w'
      ∧ w'.Faithful scopes ∧ w'.problems = [] := by
  induction h generalizing spot children w with
  | nil =>
    rw [List.append_nil]
    exact ⟨w, .nil, hw, hnil⟩
  | uses h hout _ _ ihgrown ihmore =>
    rw [← List.append_assoc] at hnames ⊢
    have hnames₁ := hnames
    rw [List.map_append, List.nodup_append] at hnames₁
    obtain ⟨w₁, hadds₁, hw₁, hnil₁⟩ := ihgrown hspot hw hnil hnames₁.1
    obtain ⟨w₂, hadds₂, hw₂, hnil₂⟩ := ihmore hspot hw₁ hnil₁ hnames
    exact ⟨w₂, .expanded h hout hadds₁ hadds₂, hw₂, hnil₂⟩
  | @node inside context parent node rest type inner more hfits htype _ hinner hfindings _ ihinner ihmore =>
    subst hspot
    obtain ⟨hhead, hw₁, hnil₁⟩ := makeHead_of_hasType hc owner hw hnil hfits htype
    generalize hmade : scopes.makeHead spot context owner node w = made at hhead hw₁ hnil₁
    obtain ⟨head, w₁⟩ := made
    dsimp only at hhead hw₁ hnil₁
    subst hhead
    obtain ⟨w₂, hadds₂, hw₂, hnil₂⟩ :=
      @ihinner (spot.down (node.makeHead owner spot.head.config type)) rfl [] w₁ hw₁ hnil₁ hinner
    rw [List.nil_append] at hadds₂
    rw [List.append_cons] at hnames ⊢
    have hall : w₂.reportAll context (node.findings (node.makeHead owner spot.head.config type) inner) = w₂ := by
      unfold Work.reportAll
      rw [hfindings, List.map_nil, List.append_nil]
    obtain ⟨w₃, hadds₃, hw₃, hnil₃⟩ := ihmore rfl hw₂ hnil₂ hnames
    refine ⟨w₃, .placed hfits.noUses ?_ hmade hadds₂ ?_, hw₃, hnil₃⟩
    · rw [Node.misplaced?_eq_none_iff]
      refine ⟨hfits.choice, fun hin => ?_⟩
      rw [List.map_append, List.nodup_append, List.map_append, List.nodup_append] at hnames
      apply hnames.1.2.2 _ hin node.name
      · rw [List.map_singleton, List.mem_singleton, name_made]
      · rfl
    · rw [hall]
      exact hadds₃

end Scopes

end Yang

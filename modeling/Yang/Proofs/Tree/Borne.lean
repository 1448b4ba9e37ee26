import Yang.Proofs.Entry.At
import Yang.Proofs.Tree.Grows
import Yang.Proofs.Typing.Reached

/-!
This module contains where entries come from. Whatever is wrong with some nodes, every entry that is made of the others
comes from a node that stands in some document. It belongs to the module that it is made for, but its type is the one
that its node refers to in that document, and so are the groupings on the way to the node.
-/

namespace Yang

inductive Document.Holds (document : Document) : List Node → Prop
  | nodes : Holds document document.body.nodes
  | grouping {grouping : Grouping} (h : grouping ∈ document.body.groupings) : Holds document grouping.nodes
  | augment {augment : Augment} (h : augment ∈ document.body.augments) : Holds document augment.nodes
  | children {nodes : List Node} {node : Node} (h : Holds document nodes) (hn : node ∈ nodes) :
    Holds document node.children

namespace Scopes

/--
The nodes that others stand for when references to groupings are replaced by the nodes of the groupings. Each reference
is read in the document that it stands in.
-/
inductive Expands (scopes : Scopes) : Context → List Node → Context → Node → Prop
  | here {context nodes} {node : Node} (hn : node ∈ nodes) (hkind : node.kind ≠ .uses) :
    Expands scopes context nodes context node
  | uses {context nodes head context' node} {found : Located Grouping} (hn : .uses head ∈ nodes)
    (hselects : scopes.Selects context head.grouping found)
    (h : Expands scopes found.context found.definition.nodes context' node) :
    Expands scopes context nodes context' node

inductive Stems (scopes : Scopes) (context : Context) (nodes : List Node) : Context → Node → Prop
  | top {context' node} (h : Expands scopes context nodes context' node) : Stems scopes context nodes context' node
  | child {context' node context'' node'} (h : Stems scopes context nodes context' node)
    (hchild : Expands scopes context' node.children context'' node') : Stems scopes context nodes context'' node'

def Types (scopes : Scopes) (context : Context) (node : Node) (type : Option ResolvedType) : Prop :=
  match node.typed? with
  | none => type = none
  | some (reference, declared) => scopes.Amounts context reference declared type

structure Makes (scopes : Scopes) (owner : Owner) (context : Context) (node : Node) (head : EntryHead) : Prop where
  made : ∃ writable type, scopes.Types context node type ∧ head = node.makeHead owner writable type
  prefixId : head.prefixId = owner.prefixId
  uri : head.uri = owner.uri

/--
The entries that nodes bear for the sake of a module when some of the nodes are left out.
-/
inductive Bears (scopes : Scopes) (owner : Owner) : Context → List Node → List Entry → Prop
  | nil {context} : Bears scopes owner context [] []
  | skip {context node rest grown} (h : Bears scopes owner context rest grown) :
    Bears scopes owner context (node :: rest) grown
  | uses {context head rest grown more} {found : Located Grouping}
    (hselects : scopes.Selects context head.grouping found)
    (hgrown : Bears scopes owner found.context found.definition.nodes grown)
    (hmore : Bears scopes owner context rest more) :
    Bears scopes owner context (.uses head :: rest) (grown ++ more)
  | node {context node rest head inner more} (hkind : node.kind ≠ .uses)
    (hmakes : scopes.Makes owner context node head) (hinner : Bears scopes owner context node.children inner)
    (hmore : Bears scopes owner context rest more) :
    Bears scopes owner context (node :: rest) (.mk head inner :: more)

variable {scopes : Scopes} {owner : Owner} {context context' : Context} {nodes more : List Node} {node : Node}
  {entries : List Entry}

theorem Expands.mono (h : scopes.Expands context nodes context' node) (hsub : ∀ n ∈ nodes, n ∈ more) :
    scopes.Expands context more context' node := by
  cases h with
  | here hn hkind => exact .here (hsub _ hn) hkind
  | uses hn hselects h => exact .uses (hsub _ hn) hselects h

theorem Stems.mono (h : scopes.Stems context nodes context' node) (hsub : ∀ n ∈ nodes, n ∈ more) :
    scopes.Stems context more context' node := by
  induction h with
  | top h => exact .top (h.mono hsub)
  | child _ hchild ih => exact .child ih hchild

theorem Stems.uses {found : Located Grouping} {head : Uses} (hn : .uses head ∈ nodes)
    (hselects : scopes.Selects context head.grouping found)
    (h : scopes.Stems found.context found.definition.nodes context' node) :
    scopes.Stems context nodes context' node := by
  induction h with
  | top h => exact .top (.uses hn hselects h)
  | child _ hchild ih => exact .child ih hchild

theorem Stems.inside {parent : Node} (hn : parent ∈ nodes) (hkind : parent.kind ≠ .uses)
    (h : scopes.Stems context parent.children context' node) : scopes.Stems context nodes context' node := by
  induction h with
  | top h => exact .child (.top (.here hn hkind)) h
  | child _ hchild ih => exact .child ih hchild

theorem holds_of_selects {found : Located Grouping} {reference : String}
    (h : scopes.Selects context reference found) :
    scopes.Shows found.context ∧ found.context.document.Holds found.definition.nodes := by
  obtain ⟨scope, hs, _, _, before, after, hdefinitions, _⟩ := h
  have hmem : found ∈ scope.definitions Grouping := by
    rw [hdefinitions]
    exact List.mem_append_right _ List.mem_cons_self
  obtain ⟨context, hc, hl⟩ := List.mem_flatMap.1 hmem
  obtain ⟨definition, hdefinition, rfl⟩ := List.mem_map.1 hl
  exact ⟨⟨scope, hs, hc⟩, .grouping hdefinition⟩

theorem Expands.stands (h : scopes.Expands context nodes context' node) (hshows : scopes.Shows context)
    (hholds : context.document.Holds nodes) :
    scopes.Shows context' ∧ ∃ beside, context'.document.Holds beside ∧ node ∈ beside := by
  induction h with
  | here hn _ => exact ⟨hshows, _, hholds, hn⟩
  | uses _ hselects _ ih =>
    obtain ⟨hfound, hnodes⟩ := holds_of_selects hselects
    exact ih hfound hnodes

theorem Stems.stands (h : scopes.Stems context nodes context' node) (hshows : scopes.Shows context)
    (hholds : context.document.Holds nodes) :
    scopes.Shows context' ∧ ∃ beside, context'.document.Holds beside ∧ node ∈ beside := by
  induction h with
  | top h => exact h.stands hshows hholds
  | child _ hchild ih =>
    obtain ⟨hshows', _, hholds', hn⟩ := ih
    exact hchild.stands hshows' (hholds'.children hn)

end Scopes

theorem Node.owner_makeHead (node : Node) (owner : Owner) (writable : Bool) (type : Option ResolvedType) :
    (node.makeHead owner writable type).prefixId = owner.prefixId
      ∧ (node.makeHead owner writable type).uri = owner.uri := by
  cases node <;> exact ⟨rfl, rfl⟩

namespace Scopes

variable {scopes : Scopes} {owner : Owner} {context context' : Context} {nodes : List Node} {node : Node}
  {entries : List Entry} {w w' : Work}

theorem makes_makeHead (hc : scopes.Coherent) (hw : scopes.Reached w) (spot : Spot) (context : Context) (owner : Owner)
    (node : Node) : scopes.Makes owner context node (scopes.makeHead spot context owner node w).1 := by
  have hmade : ∃ type, scopes.Types context node type
      ∧ (scopes.makeHead spot context owner node w).1 = node.makeHead owner spot.head.config type := by
    obtain ⟨w₁, hreport, hcases⟩ := makeHead_cases scopes spot context owner node w
    unfold Types
    rcases hcases with ⟨htyped, heq⟩ | ⟨reference, declared, htyped, heq⟩
    · rw [heq, htyped]
      exact ⟨none, rfl, rfl⟩
    · have hstart : scopes.Reached w₁ := by
        rcases hreport with rfl | rfl
        · exact hw
        · exact hw.report _ _
      rw [heq, htyped]
      refine ⟨_, ?_, rfl⟩
      apply amounts_of_denotes hc
      exact hstart.typeOf_eq_some_iff hc (.anew _ _ _)
  obtain ⟨type, htype, hhead⟩ := hmade
  rw [hhead]
  obtain ⟨howner, huri⟩ := node.owner_makeHead owner spot.head.config type
  exact ⟨⟨_, type, htype, rfl⟩, howner, huri⟩

theorem Makes.name {head : EntryHead} (h : scopes.Makes owner context node head) : head.name = node.name := by
  obtain ⟨writable, type, _, rfl⟩ := h.made
  exact node.name_makeHead owner writable type

theorem Adds.bears (hc : scopes.Coherent) {inside : List DefinitionKey} {spot : Spot} {children children' : List Entry}
    (h : Adds scopes owner inside spot context nodes children w children' w') (hw : scopes.Reached w) :
    ∃ grown, children' = children ++ grown ∧ Bears scopes owner context nodes grown
      ∧ ((children.map Entry.name).Nodup → (children'.map Entry.name).Nodup) ∧ ∀ e ∈ grown, e.All Entry.Distinct := by
  induction h with
  | nil => exact ⟨[], (List.append_nil _).symm, .nil, id, List.forall_mem_nil _⟩
  | unresolved _ _ ih =>
    obtain ⟨grown, heq, hgrown, hrest⟩ := ih (hw.report _ _)
    exact ⟨grown, heq, .skip hgrown, hrest⟩
  | recursive _ _ _ ih =>
    obtain ⟨grown, heq, hgrown, hrest⟩ := ih (hw.report _ _)
    exact ⟨grown, heq, .skip hgrown, hrest⟩
  | misplaced _ _ _ ih =>
    obtain ⟨grown, heq, hgrown, hrest⟩ := ih (hw.report _ _)
    exact ⟨grown, heq, .skip hgrown, hrest⟩
  | expanded h _ hinner _ ihinner ihmore =>
    obtain ⟨grown, rfl, hgrown, hnames, hdistinct⟩ := ihinner hw
    obtain ⟨more, rfl, hmore, hnames', hdistinct'⟩ := ihmore (hinner.reached hw)
    refine ⟨grown ++ more, List.append_assoc _ _ _, .uses (hc.selects_iff.2 h) hgrown hmore, hnames' ∘ hnames, ?_⟩
    exact List.forall_mem_append.2 ⟨hdistinct, hdistinct'⟩
  | @placed inside spot context node rest children w head w₁ inner w₂ children' w' hkind hplace hhead hinner _ ihinner
      ihmore =>
    have hmakes := makes_makeHead hc hw spot context owner node
    have hw₁ := hw.makeHead owner spot context node
    rw [hhead] at hmakes hw₁
    obtain ⟨grown, heq, hgrown, hnames, hdistinct⟩ := ihinner hw₁
    rw [List.nil_append] at heq
    subst heq
    obtain ⟨more, rfl, hmore, hnames', hdistinct'⟩ := ihmore ((hinner.reached hw₁).reportAll _ _)
    refine ⟨.mk head inner :: more, by simp, .node hkind hmakes hgrown hmore, fun hn => ?_, ?_⟩
    · apply hnames'
      apply Entry.nodup_names_concat hn
      -- a node of a name that is there already is left out
      rw [show (Entry.mk head inner).name = node.name from hmakes.name]
      exact (Node.misplaced?_eq_none_iff.1 hplace).2
    · rw [List.forall_mem_cons]
      refine ⟨?_, hdistinct'⟩
      rw [Entry.all_mk_iff]
      refine ⟨?_, hdistinct⟩
      unfold Entry.Distinct
      rw [← Entry.names_eq]
      exact hnames List.nodup_nil

def Springs (scopes : Scopes) (owner : Owner) (context : Context) (nodes : List Node) (way : List String)
    (head : EntryHead) : Prop :=
  ∃ context' node, scopes.Stems context nodes context' node ∧ scopes.Makes owner context' node head
    ∧ (way.length = 1 → scopes.Expands context nodes context' node)

section

variable {way rest : List String} {name : String} {head : EntryHead}

theorem Springs.mono (h : Springs scopes owner context nodes way head) {more : List Node}
    (hsub : ∀ n ∈ nodes, n ∈ more) : Springs scopes owner context more way head := by
  obtain ⟨context', node, hstems, hmakes, htop⟩ := h
  exact ⟨context', node, hstems.mono hsub, hmakes, fun hone => (htop hone).mono hsub⟩

theorem Springs.uses {found : Located Grouping} {reference : Uses} (hn : .uses reference ∈ nodes)
    (hselects : scopes.Selects context reference.grouping found)
    (h : Springs scopes owner found.context found.definition.nodes way head) :
    Springs scopes owner context nodes way head := by
  obtain ⟨context', node, hstems, hmakes, htop⟩ := h
  exact ⟨context', node, hstems.uses hn hselects, hmakes, fun hone => .uses hn hselects (htop hone)⟩

theorem Springs.here (hn : node ∈ nodes) (hkind : node.kind ≠ .uses) (hmakes : scopes.Makes owner context node head) :
    Springs scopes owner context nodes way head :=
  ⟨context, node, .top (.here hn hkind), hmakes, fun _ => .here hn hkind⟩

theorem Springs.inside (hn : node ∈ nodes) (hkind : node.kind ≠ .uses) (hne : rest ≠ [])
    (h : Springs scopes owner context node.children rest head) :
    Springs scopes owner context nodes (name :: rest) head := by
  obtain ⟨context', child, hstems, hmakes, _⟩ := h
  refine ⟨context', child, hstems.inside hn hkind, hmakes, fun hone => ?_⟩
  rw [List.length_cons, Nat.add_eq_right, List.length_eq_zero_iff] at hone
  exact absurd hone hne

theorem Bears.springs (h : Bears scopes owner context nodes entries) (hat : Entry.At entries way head) :
    Springs scopes owner context nodes way head := by
  induction h generalizing way with
  | nil => exact (Entry.not_at_empty hat).elim
  | skip _ ih => exact (ih hat).mono fun _ hn => List.mem_cons_of_mem _ hn
  | uses hselects _ _ ihgrown ihmore =>
    rcases Entry.at_append.1 hat with hat | hat
    · exact (ihgrown hat).uses List.mem_cons_self hselects
    · exact (ihmore hat).mono fun _ hn => List.mem_cons_of_mem _ hn
  | node hkind hmakes _ _ ihinner ihmore =>
    cases way with
    | nil => exact (Entry.not_at_nil hat).elim
    | cons name rest =>
      rcases Entry.at_cons_entry.1 hat with ⟨_, ⟨rfl, rfl⟩ | hat⟩ | hat
      · exact .here List.mem_cons_self hkind hmakes
      · exact (ihinner hat).inside List.mem_cons_self hkind (Entry.ne_nil_of_at hat)
      · exact (ihmore hat).mono fun _ hn => List.mem_cons_of_mem _ hn

end

end Scopes

end Yang

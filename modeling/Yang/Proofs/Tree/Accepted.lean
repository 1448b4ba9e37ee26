import Yang.Proofs.Tree.Grafted

/-!
This module contains what holds of all entries of the trees that are built without a problem: no entry stands where its
kind has no place, and no entry lacks what its kind needs. What holds of an entry speaks of the heads of its children
only, so it still holds when augments bring more children.
-/

namespace Yang

def Facet.Suits (name : String) : Facet → Prop
  | text _ => name ≠ "enums"
  | names _ => name = "enums"

structure ResolvedType.Proper (type : ResolvedType) : Prop where
  base : type.base ∈ builtinTypes
  suits : ∀ name facet, type.facets.lookup name = some facet → facet.Suits name

structure ResolvedType.Accepted (type : ResolvedType) : Prop where
  base : type.base ∈ builtinTypes
  enums : type.base = "enumeration" → ∃ names, type.facets.lookup "enums" = some (.names names) ∧ names ≠ []
  path : type.base = "leafref" → ∃ s, type.facets.lookup "path" = some (.text s) ∧ s ≠ ""

/--
Whether an entry has its place among its children and lacks nothing.
-/
structure Entry.Accepted (head : EntryHead) (children : List EntryHead) : Prop where
  names : (children.map EntryHead.name).Nodup
  cases : ∀ c ∈ children, c.kind = .case ↔ head.kind = .choice
  access : ∀ c ∈ children, c.config = true → head.config = true
  leaf : head.kind.isLeaf = true → children = []
  typed : head.type.isSome = head.kind.isLeaf
  type : ∀ type, head.type = some type → type.Accepted
  keys : head.kind = .list → ∀ key ∈ head.keys, ∃ c ∈ children, c.name = key ∧ c.kind = .leaf
  keyed : head.kind = .list → head.config = true → head.keys ≠ []
  default : head.kind = .choice → ∀ name, head.default = some name → ∃ c ∈ children, c.name = name
  mandatory : head.kind = .leaf → head.mandatory = true → head.default = none

theorem mem_of_lookup_putAll {α : Type} {table more : List (String × α)} {name : String} {value : α}
    (h : (putAll table more).lookup name = some value) :
    table.lookup name = some value ∨ (name, value) ∈ more := by
  unfold putAll at h
  induction more generalizing table with
  | nil => exact .inl h
  | cons p rest ih =>
    rcases ih h with h | h
    · by_cases hname : name = p.1
      · rw [hname, lookup_put_self, Option.some.injEq] at h
        right
        rw [hname, ← h]
        exact List.mem_cons_self
      · rw [lookup_put_of_ne _ _ hname] at h
        exact .inl h
    · exact .inr (List.mem_cons_of_mem _ h)

theorem Restrictions.suits_of_mem_facets {r : Restrictions} {name : String} {facet : Facet}
    (h : (name, facet) ∈ r.facets) : facet.Suits name := by
  unfold facets at h
  simp only [List.mem_append, Option.mem_toList, Option.map_eq_some_iff, Prod.mk.injEq] at h
  rcases h with (((⟨_, _, rfl, rfl⟩ | ⟨_, _, rfl, rfl⟩) | ⟨_, _, rfl, rfl⟩) | ⟨_, _, rfl, rfl⟩) | ⟨_, _, rfl, rfl⟩ <;>
    simp [Facet.Suits]

theorem ResolvedType.Proper.restrict {type : ResolvedType} (h : type.Proper) (declared : Restrictions) :
    (type.restrict declared).Proper where
  base := h.base
  suits := by
    intro name facet hfacet
    rcases mem_of_lookup_putAll hfacet with hfacet | hfacet
    · exact h.suits name facet hfacet
    · exact Restrictions.suits_of_mem_facets hfacet

theorem Reference.name_ofText {s : String} (h : (ofText s).prefixId = none) : (ofText s).name = s := by
  unfold ofText at h ⊢
  split at h
  · cases h
  · rfl

theorem Scopes.Denotes.proper {scopes : Scopes} {context : Context} {reference : String} {declared : Restrictions}
    {type : ResolvedType} (h : scopes.Denotes context reference declared type) : type.Proper := by
  induction h with
  | @builtin _ reference declared hb =>
    apply ResolvedType.Proper.restrict
    constructor
    · unfold isBuiltin at hb
      simp only [Bool.and_eq_true, Option.isNone_iff_eq_none, List.contains_eq_mem, decide_eq_true_eq] at hb
      rw [Reference.name_ofText hb.1] at hb
      exact hb.2
    · intro name facet hfacet
      cases hfacet
  | derived _ _ _ ih =>
    apply ResolvedType.Proper.restrict
    exact ⟨ih.base, ih.suits⟩

theorem Scopes.HasType.proper {scopes : Scopes} {context : Context} {node : Node} {type : Option ResolvedType}
    (h : scopes.HasType context node type) {t : ResolvedType} (ht : type = some t) : t.Proper := by
  unfold HasType at h
  split at h
  · rw [h] at ht
    cases ht
  · obtain ⟨t', rfl, hdenotes⟩ := h
    cases ht
    exact hdenotes.proper

namespace Node

variable (node : Node) (owner : Owner) (writable : Bool) (type : Option ResolvedType)

theorem kind_makeHead : (node.makeHead owner writable type).kind = node.kind.entryKind := by
  cases node <;> rfl

theorem config_makeHead : (node.makeHead owner writable type).config = node.config.getD writable := by
  cases node <;> rfl

theorem type_makeHead : (node.makeHead owner writable type).type = type := by
  cases node <;> rfl

theorem entryKind_eq_case_iff (kind : NodeKind) : kind.entryKind = .case ↔ kind = .case := by
  cases kind <;> simp [NodeKind.entryKind]

theorem isSome_typed? : node.typed?.isSome = node.kind.entryKind.isLeaf := by
  cases node <;> rfl

theorem hasFacet_enums {type : ResolvedType} (hp : type.Proper) (h : hasFacet type "enums" = true) :
    ∃ names, type.facets.lookup "enums" = some (.names names) ∧ names ≠ [] := by
  unfold hasFacet at h
  split at h
  · next s hs => exact (hp.suits _ _ hs rfl).elim
  · next names hs => exact ⟨names, hs, by simpa using h⟩
  · cases h

theorem hasFacet_path {type : ResolvedType} (hp : type.Proper) (h : hasFacet type "path" = true) :
    ∃ s, type.facets.lookup "path" = some (.text s) ∧ s ≠ "" := by
  unfold hasFacet at h
  split at h
  · next s hs => exact ⟨s, hs, by simpa using h⟩
  · next names hs =>
    have hsuits := hp.suits _ _ hs
    unfold Facet.Suits at hsuits
    simp at hsuits
  · cases h

theorem accepted_of_typeFindings {kind : NodeKind} {name : String} {type : ResolvedType} (hp : type.Proper)
    (h : typeFindings kind name type = []) : type.Accepted := by
  unfold typeFindings at h
  rw [List.append_eq_nil_iff, ite_eq_right_iff, ite_eq_right_iff] at h
  obtain ⟨henums, hpath⟩ := h
  constructor
  · exact hp.base
  · intro hbase
    apply hasFacet_enums hp
    by_contra hno
    exact absurd (henums ⟨hbase, by simpa using hno⟩) (by simp)
  · intro hbase
    apply hasFacet_path hp
    by_contra hno
    exact absurd (hpath ⟨hbase, by simpa using hno⟩) (by simp)

theorem keys_of_keyFindings {name : String} {writable : Bool} {keys : List String} {children : List Entry}
    (h : keyFindings name writable keys children = []) :
    (∀ key ∈ keys, ∃ c ∈ children.map Entry.head, c.name = key ∧ c.kind = .leaf)
      ∧ (writable = true → keys ≠ []) := by
  unfold keyFindings at h
  rw [List.append_eq_nil_iff, List.map_eq_nil_iff, List.filter_eq_nil_iff, ite_eq_right_iff] at h
  obtain ⟨hleaf, hkeyed⟩ := h
  constructor
  · intro key hkey
    have hfound := hleaf key hkey
    rw [Bool.not_eq_true, Bool.not_eq_false', Option.any_eq_true] at hfound
    obtain ⟨e, he, hkind⟩ := hfound
    obtain ⟨hmem, hname⟩ := Entry.named?_spec he
    exact ⟨e.head, List.mem_map_of_mem hmem, hname, eq_of_beq hkind⟩
  · intro hwritable hnil
    exact absurd (hkeyed ⟨hwritable, hnil⟩) (by simp)

theorem accepted_type {inner : List Entry} {type : ResolvedType} (hp : type.Proper)
    (hleaf : node.kind.entryKind.isLeaf = true)
    (h : node.findings (node.makeHead owner writable (some type)) inner = []) : type.Accepted := by
  cases node with
  | leaf l =>
    unfold findings at h
    rw [List.append_eq_nil_iff] at h
    exact accepted_of_typeFindings hp h.2
  | leafList l => exact accepted_of_typeFindings hp h
  | _ => cases hleaf

theorem default_of_findings {head : EntryHead} {choice : Choice} {nodes : List Node} {inner : List Entry}
    {name : String} (hname : choice.default = some name) (h : (Node.choice choice nodes).findings head inner = []) :
    ∃ c ∈ inner.map Entry.head, c.name = name := by
  unfold findings at h
  dsimp only at h
  rw [hname] at h
  dsimp only at h
  split at h
  · next hsome =>
    obtain ⟨e, he⟩ := Option.isSome_iff_exists.1 hsome
    obtain ⟨hmem, hn⟩ := Entry.named?_spec he
    exact ⟨e.head, List.mem_map_of_mem hmem, hn⟩
  · cases h

theorem default_eq_none_of_mandatory {leaf : Leaf} {head : EntryHead} {inner : List Entry}
    (hmandatory : leaf.mandatory = true) (h : (Node.leaf leaf).findings head inner = []) :
    ((Node.leaf leaf).makeHead owner writable type).default = none := by
  unfold findings at h
  rw [List.append_eq_nil_iff, ite_eq_right_iff] at h
  change leaf.default.or (if leaf.mandatory then none else _) = none
  rw [if_pos hmandatory, Option.or_none]
  by_contra hdefault
  exact absurd (h.1 ⟨hmandatory, Option.isSome_iff_ne_none.2 hdefault⟩) (by simp)

end Node

namespace Scopes

variable {scopes : Scopes} {owner : Owner} {inside : List DefinitionKey} {context : Context} {parent : EntryHead}
  {nodes : List Node} {grown : List Entry}

theorem Grows.fits (h : Grows scopes owner inside context parent nodes grown) :
    ∀ c ∈ grown.map Entry.head, (c.kind = .case ↔ parent.kind = .choice)
      ∧ (c.config = true → parent.config = true) := by
  induction h with
  | nil => intro c hc; cases hc
  | uses _ _ _ _ ihgrown ihmore =>
    intro c hc
    rw [List.map_append, List.mem_append] at hc
    rcases hc with hc | hc
    · exact ihgrown c hc
    · exact ihmore c hc
  | @node _ _ parent node _ type _ _ hfits _ _ _ _ _ _ ihmore =>
    intro c hc
    rw [List.map_cons, List.mem_cons] at hc
    rcases hc with rfl | hc
    · constructor
      · rw [Entry.head, Node.kind_makeHead, Node.entryKind_eq_case_iff]
        exact hfits.choice
      · rw [Entry.head, Node.config_makeHead]
        intro hconfig
        cases hdeclared : node.config with
        | none => rwa [hdeclared] at hconfig
        | some declared =>
          rw [hdeclared, Option.getD_some] at hconfig
          by_contra hparent
          apply hfits.access
          exact ⟨by rw [hdeclared, hconfig], by simpa using hparent⟩
    · exact ihmore c hc

theorem Grows.eq_nil (h : Grows scopes owner inside context parent [] grown) : grown = [] := by
  cases h
  rfl

theorem HasType.isSome {node : Node} {type : Option ResolvedType} (h : scopes.HasType context node type) :
    type.isSome = node.kind.entryKind.isLeaf := by
  rw [← Node.isSome_typed?]
  unfold HasType at h
  split at h
  · next hnone => rw [h, hnone]; rfl
  · next hsome =>
    obtain ⟨t, rfl, _⟩ := h
    rw [hsome]
    rfl

theorem accepted_makeHead {node : Node} (hfits : Fits node parent) {type : Option ResolvedType}
    (htype : scopes.HasType context node type) {inner : List Entry}
    (hinner : Grows scopes owner inside context (node.makeHead owner parent.config type) node.children inner)
    (hnames : (inner.map Entry.name).Nodup)
    (hfindings : node.findings (node.makeHead owner parent.config type) inner = []) :
    Entry.Accepted (node.makeHead owner parent.config type) (inner.map Entry.head) where
  names := by
    rw [← Entry.names_eq]
    exact hnames
  cases := fun c hc => (hinner.fits c hc).1
  access := fun c hc => (hinner.fits c hc).2
  leaf := by
    intro hleaf
    rw [Node.kind_makeHead] at hleaf
    have hnil : node.children = [] := by
      cases node <;> first | rfl | cases hleaf
    rw [hnil] at hinner
    rw [hinner.eq_nil]
    rfl
  typed := by
    rw [Node.type_makeHead, Node.kind_makeHead]
    exact htype.isSome
  type := by
    intro t ht
    rw [Node.type_makeHead] at ht
    subst ht
    exact node.accepted_type owner parent.config (htype.proper rfl) htype.isSome.symm hfindings
  keys := by
    intro hlist
    cases node with
    | list l ns => exact (Node.keys_of_keyFindings hfindings).1
    | _ => cases hlist
  keyed := by
    intro hlist
    cases node with
    | list l ns => exact (Node.keys_of_keyFindings hfindings).2
    | _ => cases hlist
  default := by
    intro hchoice name hname
    cases node with
    | choice c ns => exact Node.default_of_findings hname hfindings
    | _ => cases hchoice
  mandatory := by
    intro hleaf hmandatory
    cases node with
    | leaf l => exact Node.default_eq_none_of_mandatory _ _ _ hmandatory hfindings
    | _ => cases hleaf

structure Thriving (tree : Entry) : Prop where
  kind : tree.head.kind = .module
  entries : tree.All Entry.Accepted

theorem accepted_of_module {head : EntryHead} (hkind : head.kind = .module) (hconfig : head.config = true)
    (htype : head.type = none) {children : List EntryHead} (hnames : (children.map EntryHead.name).Nodup)
    (hcases : ∀ c ∈ children, c.kind = .case ↔ head.kind = .choice) : Entry.Accepted head children where
  names := hnames
  cases := hcases
  access := fun _ _ _ => hconfig
  leaf := by rw [hkind]; intro h; cases h
  typed := by rw [hkind, htype]; rfl
  type := by rw [htype]; intro t ht; cases ht
  keys := by rw [hkind]; intro h; cases h
  keyed := by rw [hkind]; intro h; cases h
  default := by rw [hkind]; intro h; cases h
  mandatory := by rw [hkind]; intro h; cases h

theorem GrowsAll.fits {contexts : List Context} (h : GrowsAll scopes owner parent contexts grown) :
    ∀ c ∈ grown.map Entry.head, (c.kind = .case ↔ parent.kind = .choice)
      ∧ (c.config = true → parent.config = true) := by
  induction h with
  | nil =>
    intro c hc
    cases hc
  | cons hgrows _ ih =>
    intro c hc
    rw [List.map_append, List.mem_append] at hc
    rcases hc with hc | hc
    · exact hgrows.fits c hc
    · exact ih c hc

theorem Planted.accepted {scope : Scope} {tree : Entry} (h : scopes.Planted scope tree) :
    Entry.Accepted tree.head (tree.children.map Entry.head) := by
  have hgrown := h.grown
  have hnames := h.names
  rw [Entry.names_eq] at hnames
  rw [h.head]
  exact accepted_of_module rfl rfl rfl hnames fun c hc => (hgrown.fits c hc).1

theorem accepted_append {head : EntryHead} {children more : List EntryHead} (h : Entry.Accepted head children)
    (hleaf : head.kind.isLeaf = false) (hnames : ((children ++ more).map EntryHead.name).Nodup)
    (hmore : ∀ c ∈ more, (c.kind = .case ↔ head.kind = .choice) ∧ (c.config = true → head.config = true)) :
    Entry.Accepted head (children ++ more) where
  names := hnames
  cases := by
    intro c hc
    rcases List.mem_append.1 hc with hc | hc
    · exact h.cases c hc
    · exact (hmore c hc).1
  access := by
    intro c hc
    rcases List.mem_append.1 hc with hc | hc
    · exact h.access c hc
    · exact (hmore c hc).2
  leaf := by rw [hleaf]; intro hno; cases hno
  typed := h.typed
  type := h.type
  keys := by
    intro hlist key hkey
    obtain ⟨c, hc, hname⟩ := h.keys hlist key hkey
    exact ⟨c, List.mem_append_left _ hc, hname⟩
  keyed := h.keyed
  default := by
    intro hchoice name hname
    obtain ⟨c, hc, heq⟩ := h.default hchoice name hname
    exact ⟨c, List.mem_append_left _ hc, heq⟩
  mandatory := h.mandatory

theorem Grafted.accepted {forest forest' : Forest} {graft : Graft} {entry : Entry} {target : Target}
    {grown : List Entry} (h : Grafted scopes forest graft entry target grown forest')
    (hentry : Entry.Accepted entry.head (entry.children.map Entry.head)) :
    Entry.Accepted entry.head ((entry.children ++ grown).map Entry.head) := by
  have hnames := h.names
  rw [Entry.names_eq] at hnames
  rw [List.map_append] at hnames ⊢
  exact accepted_append hentry h.targets.inner hnames h.grows.fits

theorem Flourishes.thriving {forest : Forest} (h : scopes.Flourishes forest) : ∀ tree ∈ forest, Thriving tree := by
  intro tree htree
  constructor
  · obtain ⟨scope, _, heq⟩ := exists_mem_of_map_eq h.heads htree
    rw [← heq]
    rfl
  · apply h.all _ Planted.accepted Grafted.accepted tree htree
    intro _ _ _ _ _ _ _ hfits htype hinner hnames hfindings
    exact accepted_makeHead hfits htype hinner hnames hfindings

end Scopes

end Yang

import Yang.Proofs.ModuleSet.Named

/-!
This module contains the defaults and units in trees that are built without a problem: a leaf has its own ones, or else
those of the nearest derived type on the way of its type.
-/

namespace Yang

def nearest (own : Option String) (field : Typedef → Option String) (hops : List Hop) : Option String :=
  own.or (hops.findSome? fun hop => field hop.found.definition)

/--
Whether an entry has the units that are declared nearest to its node. Empty units of the node itself do not count.
-/
structure EntryHead.HasUnits (head : EntryHead) (own : Option String) (hops : List Hop) : Prop where
  declared : own ≠ some "" → head.units = nearest own Typedef.units hops
  empty : own = some "" → head.units = nearest none Typedef.units hops

structure Leaf.Inherits (l : Leaf) (hops : List Hop) (head : EntryHead) : Prop where
  default : head.default = if l.mandatory then l.default else nearest l.default Typedef.default hops
  units : head.HasUnits l.units hops

structure LeafList.Inherits (l : LeafList) (hops : List Hop) (head : EntryHead) : Prop where
  default : head.default = none
  units : head.HasUnits l.units hops

theorem Node.filled?_eq_self {own : Option String} (h : own ≠ some "") : filled? own = own := by
  cases own with
  | none => rfl
  | some s =>
    rw [ne_eq, Option.some.injEq] at h
    exact Option.filter_some_pos (bne_iff_ne.2 h)

theorem hasUnits_of_eq {head : EntryHead} {type : ResolvedType} {own : Option String} {reference : String}
    {declared : Restrictions} {hops : List Hop} {base : String} (hkeeps : type.Keeps reference declared hops base)
    (h : head.units = (Node.filled? own).or type.units) : head.HasUnits own hops := by
  rw [hkeeps.units] at h
  constructor
  · intro hne
    rw [h, Node.filled?_eq_self hne]
    rfl
  · rintro rfl
    rw [h]
    rfl

theorem Leaf.inherits_makeHead (l : Leaf) (owner : Owner) (writable : Bool) {type : ResolvedType} {hops : List Hop}
    {base : String} (hkeeps : type.Keeps l.type l.restrictions hops base) :
    l.Inherits hops ((Node.leaf l).makeHead owner writable (some type)) where
  default := by
    change l.default.or (if l.mandatory then none else type.default) = _
    rw [hkeeps.default]
    split
    · exact Option.or_none
    · rfl
  units := hasUnits_of_eq hkeeps rfl

theorem LeafList.inherits_makeHead (l : LeafList) (owner : Owner) (writable : Bool) {type : ResolvedType}
    {hops : List Hop} {base : String} (hkeeps : type.Keeps l.type l.restrictions hops base) :
    l.Inherits hops ((Node.leafList l).makeHead owner writable (some type)) where
  default := rfl
  units := hasUnits_of_eq hkeeps rfl

namespace Scopes

/--
Whether all leaves and leaf-lists of a forest have what is declared nearest to the nodes that they are made of.
-/
structure Inherits (scopes : Scopes) (forest : Forest) : Prop where
  leaves : ∀ tree ∈ forest, ∀ e, Entry.Within e tree → e.head.kind = .leaf →
    ∃ scope ∈ scopes, ∃ context l hops base type, scopes.ExpandsFor scope context (.leaf l)
      ∧ scopes.Makes scope.main.asOwner context (.leaf l) e.head ∧ scopes.Way context l.type hops base
      ∧ e.head.type = some type ∧ type.Keeps l.type l.restrictions hops base ∧ l.Inherits hops e.head
  leafLists : ∀ tree ∈ forest, ∀ e, Entry.Within e tree → e.head.kind = .leafList →
    ∃ scope ∈ scopes, ∃ context l hops base type, scopes.ExpandsFor scope context (.leafList l)
      ∧ scopes.Makes scope.main.asOwner context (.leafList l) e.head ∧ scopes.Way context l.type hops base
      ∧ e.head.type = some type ∧ type.Keeps l.type l.restrictions hops base ∧ l.Inherits hops e.head

variable {scopes : Scopes} {forest : Forest}

theorem Makes.exists_way {owner : Owner} {context : Context} {node : Node} {head : EntryHead}
    (h : scopes.Makes owner context node head) {type : ResolvedType} (htype : head.type = some type) :
    ∃ writable reference declared hops base, node.typed? = some (reference, declared)
      ∧ head = node.makeHead owner writable (some type)
      ∧ scopes.Way context reference hops base ∧ type.Keeps reference declared hops base := by
  obtain ⟨writable, made, htypes, rfl⟩ := h.made
  rw [Node.type_makeHead] at htype
  subst htype
  unfold Types at htypes
  split at htypes
  · cases htypes
  · next reference declared htyped =>
    obtain ⟨hops, base, hway, hkeeps⟩ := htypes.keeps type rfl
    exact ⟨writable, reference, declared, hops, base, htyped, rfl, hway, hkeeps⟩

theorem Owned.exists_way (h : scopes.Owned forest)
    (hheads : forest.map Entry.head = scopes.map (fun scope => scope.main.head))
    (hthriving : ∀ tree ∈ forest, Thriving tree) {tree e : Entry} (htree : tree ∈ forest) (he : Entry.Within e tree)
    (hkind : e.head.kind.isLeaf = true) :
    ∃ scope ∈ scopes, ∃ context node writable reference declared hops base type, scopes.ExpandsFor scope context node
      ∧ scopes.Makes scope.main.asOwner context node e.head ∧ node.typed? = some (reference, declared)
      ∧ e.head = node.makeHead scope.main.asOwner writable (some type) ∧ scopes.Way context reference hops base
      ∧ type.Keeps reference declared hops base := by
  have htyped := ((hthriving tree htree).entries e he).typed
  rw [hkind, Option.isSome_iff_exists] at htyped
  obtain ⟨type, htype⟩ := htyped
  rcases h.origin hheads htree he with ⟨scope, _, heq⟩ | ⟨scope, hs, context, node, hfor, _, _, hmakes⟩
  · rw [heq] at hkind
    cases hkind
  · obtain ⟨writable, reference, declared, hops, base, hnode, heq, hway, hkeeps⟩ := hmakes.exists_way htype
    exact ⟨scope, hs, context, node, writable, reference, declared, hops, base, type, hfor, hmakes, hnode, heq, hway,
      hkeeps⟩

theorem Owned.inherits (h : scopes.Owned forest)
    (hheads : forest.map Entry.head = scopes.map (fun scope => scope.main.head))
    (hthriving : ∀ tree ∈ forest, Thriving tree) : scopes.Inherits forest where
  leaves := by
    intro tree htree e he hkind
    obtain ⟨scope, hs, context, node, writable, _, _, hops, base, type, hfor, hmakes, hnode, heq, hway, hkeeps⟩ :=
      h.exists_way hheads hthriving htree he (by rw [hkind]; rfl)
    rw [heq, Node.kind_makeHead] at hkind
    cases node with
    | leaf l =>
      cases hnode
      have hinherits := l.inherits_makeHead scope.main.asOwner writable hkeeps
      rw [← heq] at hinherits
      exact ⟨scope, hs, context, l, hops, base, type, hfor, hmakes, hway, by rw [heq]; rfl, hkeeps, hinherits⟩
    | _ => cases hkind
  leafLists := by
    intro tree htree e he hkind
    obtain ⟨scope, hs, context, node, writable, _, _, hops, base, type, hfor, hmakes, hnode, heq, hway, hkeeps⟩ :=
      h.exists_way hheads hthriving htree he (by rw [hkind]; rfl)
    rw [heq, Node.kind_makeHead] at hkind
    cases node with
    | leafList l =>
      cases hnode
      have hinherits := l.inherits_makeHead scope.main.asOwner writable hkeeps
      rw [← heq] at hinherits
      exact ⟨scope, hs, context, l, hops, base, type, hfor, hmakes, hway, by rw [heq]; rfl, hkeeps, hinherits⟩
    | _ => cases hkind

end Scopes

namespace ModuleSet

/--
When a set was processed without problems, all leaves and leaf-lists have the defaults and units that are declared
nearest to their nodes, as long as no node declares empty units; such a node has the units of its type.
-/
theorem process_inherits {store : Store} {files : Files} (hok : (process ⟨store, none⟩ files).1 = .ok []) :
    ∃ forest, (process ⟨store, none⟩ files).2.outcome = some ⟨[], forest⟩
      ∧ (gather store files).1.Inherits forest := by
  rw [process_open] at hok ⊢
  split at hok
  · cases hok
  · next hnone =>
    have hc := (sound_gather store files).coherent
    dsimp only at hok ⊢
    rw [Except.ok.injEq] at hok
    rw [hok]
    have hnil := (List.append_eq_nil_iff.1 hok).2
    exact ⟨_, rfl, (Scopes.owned_forest hc).inherits (Scopes.heads_forest _)
      (Scopes.flourishes_forest hc hnil).thriving⟩

def measure : Typedef :=
  ⟨.free, "t", "string", none, some "d", some "x"⟩

def measured (name : String) (units : Option String) : Leaf :=
  ⟨.free, name, "t", none, none, false, none, units⟩

def measuring : Module :=
  ⟨"m", "u", ⟨"p", none, none, none, none, [], [], [measure], [], [.leaf (measured "a" none),
    .leaf (measured "b" (some ""))], [], "m.yaml"⟩⟩

def measuringSet : ModuleSet :=
  ⟨⟨[], [measuring], [], [], []⟩, none⟩

def measuringContext : Context :=
  .first "m" (.main measuring)

def measuringScopes : Scopes :=
  [⟨measuring, [measuringContext]⟩]

def measuringTree : Entry :=
  let entry (l : Leaf) : Entry :=
    .mk ((Node.leaf l).makeHead measuring.asOwner true (some ⟨"t", "string", [], ["t"], some "d", some "x"⟩)) []
  .mk measuring.head [entry (measured "a" none), entry (measured "b" (some ""))]

theorem gather_measuringSet (files : Files) : gather measuringSet.store files
    = (measuringScopes, ⟨measuringSet.store.note (.collected "m" 1), [], none⟩) :=
  gather_sole rfl rfl rfl (by decide) List.nodup_nil

theorem planted_measuring (hc : measuringScopes.Coherent) :
    measuringScopes.Planted ⟨measuring, [measuringContext]⟩ measuringTree := by
  have hfound : measuringScopes.resolve measuringContext "t" = .ok (Located.mk measure measuringContext) :=
    hc.selects_iff.1 ⟨_, List.mem_singleton_self _, rfl, rfl, [], [], rfl, List.forall_mem_nil _⟩
  have hstring := @Scopes.Denotes.builtin measuringScopes measuringContext "string" .free (by decide)
  have htype := @Scopes.Denotes.derived measuringScopes measuringContext "t" .free _ _ (by decide) hfound
    hstring
  have hgrows : Scopes.Grows measuringScopes measuring.asOwner [] measuringContext measuring.head measuring.body.nodes
      measuringTree.children := by
    refine .node ⟨by decide, by decide, by decide⟩ ((Scopes.hasType_of_typed?_eq_some rfl _).2 ⟨_, rfl, htype⟩) .nil
      List.nodup_nil rfl ?_
    exact .node ⟨by decide, by decide, by decide⟩ ((Scopes.hasType_of_typed?_eq_some rfl _).2 ⟨_, rfl, htype⟩) .nil
      List.nodup_nil rfl .nil
  refine ⟨rfl, ?_, by decide, ?_⟩
  · have hall : Scopes.GrowsAll measuringScopes measuring.asOwner measuring.head [measuringContext]
      (measuringTree.children ++ []) := .cons hgrows .nil
    rwa [List.append_nil] at hall
  · intro l hl
    have hmem : l ∈ [Located.mk measure measuringContext] := Scope.mem_definitions_of_mem_firsts hl
    rw [List.mem_singleton] at hmem
    subst hmem
    exact ⟨_, _, hstring, rfl⟩

theorem process_measuringSet (files : Files) : (measuringSet.process files).1 = .ok []
    ∧ (measuringSet.process files).2.toEntry "m" = .ok measuringTree := by
  have hc := (sound_gather measuringSet.store files).coherent
  rw [gather_measuringSet] at hc
  obtain ⟨htrees, hproblems⟩ := Scopes.forest_of_planted hc (.cons (planted_measuring hc) .nil) rfl
  unfold toEntry
  rw [show measuringSet = ⟨measuringSet.store, none⟩ from rfl, process_open, gather_measuringSet]
  dsimp only
  rw [htrees, hproblems]
  exact ⟨rfl, rfl⟩

theorem process_inherits_sample :
    (process ⟨measuringSet.store, none⟩ .empty).1 = .ok []
      ∧ ∃ forest, (process ⟨measuringSet.store, none⟩ .empty).2.outcome = some ⟨[], forest⟩
      ∧ (gather measuringSet.store .empty).1.Inherits forest :=
  have hok := (process_measuringSet .empty).1
  ⟨hok, process_inherits hok⟩

def measuringText : String :=
  "module: m\nnamespace: u\nprefix: p\ntypedefs:\n- name: t\n  type: string\n  default: d\n  units: x\nnodes:\n"
    ++ "- kind: leaf\n  name: a\n  type: t\n- kind: leaf\n  name: b\n  type: t\n  units: ''\n"

def isMeasuring : Module → Bool
  | ⟨"m", "u", ⟨"p", none, none, none, none, [], [],
    [⟨⟨none, none, none, none, none⟩, "t", "string", none, some "d", some "x"⟩], [],
    [.leaf ⟨⟨none, none, none, none, none⟩, "a", "t", none, none, false, none, none⟩,
      .leaf ⟨⟨none, none, none, none, none⟩, "b", "t", none, none, false, none, some ""⟩], [], "m.yaml"⟩⟩ => true
  | _ => false

theorem parse_measuringText : Document.parse measuringText "m.yaml" = .ok [.main measuring] := by
  obtain ⟨m, hparse, hm⟩ := exists_of_any_soleModule?
    (show (soleModule? (Document.parse measuringText "m.yaml")).any isMeasuring = true by decide +kernel)
  unfold isMeasuring at hm
  split at hm
  · exact hparse
  · cases hm

theorem process_not_inherits :
    Document.parse measuringText "m.yaml" = .ok [.main measuring] ∧ measuringSet.store.modules = [measuring]
      ∧ (measuringSet.process .empty).1 = .ok []
      ∧ ∃ tree e l, (measuringSet.process .empty).2.toEntry "m" = .ok tree ∧ Entry.Within e tree
        ∧ Node.leaf l ∈ measuring.body.nodes ∧ e.name = l.name ∧ l.units = some "" ∧ e.head.units = some "x" := by
  obtain ⟨hok, htree⟩ := process_measuringSet .empty
  exact ⟨parse_measuringText, rfl, hok, _, _, measured "b" (some ""), htree,
    .child (List.mem_cons_of_mem _ List.mem_cons_self) (.self _), List.mem_cons_of_mem _ List.mem_cons_self, rfl, rfl,
    rfl⟩

end ModuleSet

end Yang

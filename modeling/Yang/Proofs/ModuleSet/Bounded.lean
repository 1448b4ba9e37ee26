import Yang.Proofs.ModuleSet.Named
import Yang.Proofs.Schema.Bounded

/-!
This module contains the bounds in sets that come of an empty set. The bounds of lists are in order, in documents and in
trees. Those of a leaf-list are in order just when they are in the document that it comes from.
-/

namespace Yang

def EntryHead.Bounded (head : EntryHead) : Prop :=
  ∀ least greatest, head.minElements = some least → head.maxElements = some greatest → least ≤ greatest

theorem Node.Bounded.makeHead {node : Node} (h : node.Bounded) (hkind : node.kind ≠ .leafList) (owner : Owner)
    (writable : Bool) (type : Option ResolvedType) : (node.makeHead owner writable type).Bounded := by
  intro least greatest hleast hgreatest
  cases node with
  | list head nodes =>
    obtain ⟨a, ha, rfl⟩ := Option.map_eq_some_iff.1 hleast
    obtain ⟨b, hb, rfl⟩ := Option.map_eq_some_iff.1 hgreatest
    obtain ⟨hbounds, _⟩ := h
    exact Int.ofNat_le.2 (hbounds head nodes rfl a b ha hb)
  | leafList head => exact absurd rfl hkind
  | container | leaf | choice | case | uses => cases hleast

theorem Document.Bounded.holds {document : Document} (h : document.Bounded) {nodes : List Node}
    (hholds : document.Holds nodes) : ∀ node ∈ nodes, node.Bounded := by
  induction hholds with
  | nodes => exact h.nodes
  | grouping hg => exact h.groupings _ hg
  | augment ha => exact h.augments _ ha
  | children _ hn ih =>
    obtain ⟨_, hchildren⟩ := ih _ hn
    exact hchildren

namespace Scopes

/--
What is known of the bounds in the trees of scopes. A leaf-list in a tree has the bounds of a leaf-list in a document.
-/
structure InBounds (scopes : Scopes) (forest : Forest) : Prop where
  documents : ∀ context, scopes.Shows context → context.document.Bounded
  entries : ∀ tree ∈ forest, ∀ e, Entry.Within e tree → e.head.kind ≠ .leafList → e.head.Bounded
  leafLists : ∀ tree ∈ forest, ∀ e, Entry.Within e tree → e.head.kind = .leafList →
    ∃ (context : Context) (beside : List Node) (head : LeafList), scopes.Shows context
      ∧ context.document.Holds beside ∧ .leafList head ∈ beside ∧ e.name = head.name
      ∧ e.head.minElements = head.minElements.map Int.ofNat ∧ e.head.maxElements = head.maxElements.map Int.ofNat

variable {scopes : Scopes} {forest : Forest}

theorem Owned.inBounds (h : scopes.Owned forest)
    (hheads : forest.map Entry.head = scopes.map (fun scope => scope.main.head))
    (hdocuments : ∀ context, scopes.Shows context → context.document.Bounded) : scopes.InBounds forest where
  documents := hdocuments
  entries := by
    intro tree htree e he hkind
    rcases h.origin hheads htree he with
      ⟨scope, _, heq⟩ | ⟨_, _, context, node, _, hshows, ⟨beside, hholds, hnode⟩, hmakes⟩
    · intro least greatest hleast
      rw [heq] at hleast
      cases hleast
    · have hbounded := (hdocuments context hshows).holds hholds node hnode
      have hleafList : node.kind ≠ .leafList := by
        intro heq
        rw [hmakes.kind, heq] at hkind
        exact hkind rfl
      obtain ⟨writable, type, _, heq⟩ := hmakes.made
      rw [heq]
      exact hbounded.makeHead hleafList _ _ _
  leafLists := by
    intro tree htree e he hkind
    rcases h.origin hheads htree he with
      ⟨scope, _, heq⟩ | ⟨_, _, context, node, _, hshows, ⟨beside, hholds, hnode⟩, hmakes⟩
    · rw [heq] at hkind
      cases hkind
    · obtain ⟨writable, type, _, heq⟩ := hmakes.made
      rw [hmakes.kind] at hkind
      cases node with
      | leafList head =>
        exact ⟨context, beside, head, hshows, hholds, hnode, hmakes.name, by rw [heq]; rfl, by rw [heq]; rfl⟩
      | _ => cases hkind

end Scopes

namespace ModuleSet

/--
The bounds of all lists in documents that can be read are in order. When a set that comes of an empty one was processed,
so are the bounds of all entries, but for leaf-lists: the bounds of a leaf-list are those in some document, whatever
they are.
-/
theorem process_inBounds {store : Store} {files : Files} {problems : List Diagnostic} (hbegun : Begun ⟨store, none⟩)
    (hok : (process ⟨store, none⟩ files).1 = .ok problems) :
    (∀ value m, Module.read value = .good m → (Document.main m).Bounded)
      ∧ (∀ value s, Submodule.read value = .good s → (Document.part s).Bounded)
      ∧ ∃ forest, (process ⟨store, none⟩ files).2.outcome = some ⟨problems, forest⟩
        ∧ Scopes.InBounds (gather store files).1 forest := by
  refine ⟨fun value m h => Module.bounded_ensures value m h, fun value s h => Submodule.bounded_ensures value s h, ?_⟩
  rw [process_open] at hok ⊢
  split at hok
  · cases hok
  · cases hok
    have hloaded := ensured_gather Document.ensured_bounded (hbegun.ensured Document.ensured_bounded) files
    have howned := Scopes.owned_forest (sound_gather store files).coherent
    exact ⟨_, rfl, howned.inBounds (Scopes.heads_forest _)
      fun context hshows => hloaded _ (spelled_gather store files context hshows).1⟩

def fenced : ModuleSet :=
  plain [.list ⟨"l", none, some false, none, some 1, some 3, .system⟩ [],
    .leafList ⟨.free, "a", "string", none, none, some 5, none, .system, none⟩] []

def fencedText : String :=
  "module: m\nnamespace: u\nprefix: p\nnodes:\n- kind: list\n  name: l\n  config: no\n  min-elements: 1\n"
    ++ "  max-elements: 3\n- kind: leaf-list\n  name: a\n  type: string\n  min-elements: 5\n"

def isFenced : Module → Bool
  | ⟨"m", "u", ⟨"p", none, none, none, none, [], [], [], [],
    [.list ⟨"l", none, some false, none, some 1, some 3, .system⟩ [],
      .leafList ⟨⟨none, none, none, none, none⟩, "a", "string", none, none, some 5, none, .system, none⟩], [],
    "m.yaml"⟩⟩ => true
  | _ => false

theorem begun_fenced : fenced.Begun := by
  obtain ⟨m, hparse, hm⟩ := exists_of_any_soleModule?
    (show (soleModule? (Document.parse fencedText "m.yaml")).any isFenced = true by decide +kernel)
  unfold isFenced at hm
  split at hm
  · exact begun_of_parse hparse
  · cases hm

theorem process_fenced (files : Files) : (fenced.process files).1 = .ok [] := by
  unfold fenced
  rw [show plain _ _ = ⟨(plain _ _).store, none⟩ from rfl, process_open, gather_plain]
  cbv

theorem process_inBounds_fenced : Begun ⟨fenced.store, none⟩ ∧ (process ⟨fenced.store, none⟩ .empty).1 = .ok []
    ∧ (∀ value m, Module.read value = .good m → (Document.main m).Bounded)
    ∧ (∀ value s, Submodule.read value = .good s → (Document.part s).Bounded)
    ∧ ∃ forest, (process ⟨fenced.store, none⟩ .empty).2.outcome = some ⟨[], forest⟩
      ∧ Scopes.InBounds (gather fenced.store .empty).1 forest :=
  ⟨begun_fenced, process_fenced _, process_inBounds begun_fenced (process_fenced _)⟩

def crossed : ModuleSet :=
  plain [.leafList ⟨.free, "a", "string", none, none, some 5, some 2, .system, none⟩] []

def crossedText : String :=
  "module: m\nnamespace: u\nprefix: p\nnodes:\n- kind: leaf-list\n  name: a\n  type: string\n"
    ++ "  min-elements: 5\n  max-elements: 2\n"

def isCrossed : Module → Bool
  | ⟨"m", "u", ⟨"p", none, none, none, none, [], [], [], [],
    [.leafList ⟨⟨none, none, none, none, none⟩, "a", "string", none, none, some 5, some 2, .system, none⟩], [],
    "m.yaml"⟩⟩ => true
  | _ => false

theorem parse_crossedText :
    ∃ m, Document.parse crossedText "m.yaml" = .ok [.main m] ∧ crossed.store.modules = [m] := by
  obtain ⟨m, hparse, hm⟩ := exists_of_any_soleModule?
    (show (soleModule? (Document.parse crossedText "m.yaml")).any isCrossed = true by decide +kernel)
  refine ⟨m, hparse, ?_⟩
  unfold isCrossed at hm
  split at hm
  · rfl
  · cases hm

theorem process_crossed (files : Files) : (crossed.process files).1 = .ok []
    ∧ ∃ tree e, (crossed.process files).2.toEntry "m" = .ok tree ∧ Entry.Within e tree
      ∧ e.head.minElements = some 5 ∧ e.head.maxElements = some 2 := by
  unfold crossed
  rw [show plain _ _ = ⟨(plain _ _).store, none⟩ from rfl, process_open, gather_plain]
  exact ⟨by cbv, _, _, by cbv, .child List.mem_cons_self (.self _), by cbv, by cbv⟩

theorem process_not_inBounds :
    (∃ m, Document.parse crossedText "m.yaml" = .ok [.main m] ∧ crossed.store.modules = [m])
      ∧ (crossed.process .empty).1 = .ok []
      ∧ ∃ tree e, (crossed.process .empty).2.toEntry "m" = .ok tree ∧ Entry.Within e tree ∧ ¬ e.head.Bounded := by
  obtain ⟨hok, tree, e, htree, he, hleast, hgreatest⟩ := process_crossed .empty
  refine ⟨parse_crossedText, hok, tree, e, htree, he, fun hbounded => ?_⟩
  exact absurd (hbounded 5 2 hleast hgreatest) (by decide)

end ModuleSet

end Yang

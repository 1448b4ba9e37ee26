import Yang.Proofs.Entry.Named
import Yang.Proofs.Gather.Spelled
import Yang.Proofs.ModuleSet.Appended
import Yang.Proofs.ModuleSet.Owned
import Yang.Proofs.Schema.Named

/-!
This module contains the names in sets that come of an empty set. Whatever was done with such a set, its documents were
parsed. So all names in them are identifiers, and so are the names and prefixes in the trees that they make.
-/

namespace Yang

theorem Document.Whole.ensured {q : Document → Prop} (hq : Ensured q) {documents : List Document} (h : Whole documents) :
    ∀ d ∈ documents, q d := by
  obtain ⟨text, source, hparse⟩ := h
  exact hq.parse hparse

theorem Document.Named.holds {document : Document} (h : document.Named) {nodes : List Node}
    (hholds : document.Holds nodes) : ∀ node ∈ nodes, node.Named := by
  induction hholds with
  | nodes => exact h.body.nodes
  | grouping hg => exact h.body.groupings _ hg
  | augment ha => exact h.body.augments _ ha
  | children _ hn ih =>
    obtain ⟨_, hchildren⟩ := ih _ hn
    exact hchildren

namespace Scopes

structure Named (scopes : Scopes) : Prop where
  documents : ∀ context, scopes.Shows context → context.document.Named
  prefixes : ∀ context, scopes.Shows context → ∀ p ∈ context.prefixes, Field.isIdentifier p.1 = true
  mains : ∀ scope ∈ scopes, (Document.main scope.main).Named

variable {scopes : Scopes} {forest : Forest}

theorem Expands.kind {context context' : Context} {nodes : List Node} {node : Node}
    (h : scopes.Expands context nodes context' node) : node.kind ≠ .uses := by
  induction h with
  | here _ hkind => exact hkind
  | uses _ _ _ ih => exact ih

theorem Stems.kind {context context' : Context} {nodes : List Node} {node : Node}
    (h : scopes.Stems context nodes context' node) : node.kind ≠ .uses := by
  cases h with
  | top h => exact h.kind
  | child _ h => exact h.kind

theorem Makes.kind {owner : Owner} {context : Context} {node : Node} {head : EntryHead}
    (h : scopes.Makes owner context node head) : head.kind = node.kind.entryKind := by
  obtain ⟨writable, type, _, rfl⟩ := h.made
  exact node.kind_makeHead owner writable type

theorem Owned.named (h : scopes.Owned forest) (hn : scopes.Named) :
    ∀ tree ∈ forest, ∀ e, Entry.Within e tree → ∀ c ∈ e.children, c.head.Named := by
  intro tree htree e he c hc
  obtain ⟨scope, hs, context, node, hfor, hshows, ⟨beside, hholds, hnode⟩, hmakes⟩ := h.origins tree htree e he c hc
  obtain ⟨_, _, _, hstems, _⟩ := hfor
  obtain ⟨hname, _⟩ := (hn.documents context hshows).holds hholds node hnode
  constructor
  · rw [hmakes.name]
    exact hname hstems.kind
  · rw [hmakes.prefixId]
    exact (hn.mains scope hs).body.prefixId
  · rw [hmakes.kind]
    cases node.kind <;> nofun

end Scopes

namespace ModuleSet

theorem ensured_gather {q : Document → Prop} (hq : Document.Ensured q) {store : Store}
    (hloaded : ∀ d, store.Loaded d → q d) (files : Files) : ∀ d, (gather store files).2.store.Loaded d → q d := by
  obtain ⟨scopes, hperm, hruns⟩ := gather_spec store files
  obtain ⟨batches, hcollects⟩ := hruns.steps.collects
  intro d hd
  rcases hcollects.loaded hd with hd | ⟨batch, hbatch, hd⟩
  · exact hloaded d hd
  · exact (hcollects.whole batch hbatch).ensured hq d hd

theorem spelled_gather (store : Store) (files : Files) : ∀ context, Scopes.Shows (gather store files).1 context →
    (gather store files).2.store.Loaded context.document ∧ context.Spelled := by
  obtain ⟨scopes, hperm, hruns⟩ := gather_spec store files
  have hspelled := hruns.spelled (List.forall_mem_nil _)
  rintro context ⟨scope, hs, hcontext⟩
  exact hspelled scope (hperm.mem_iff.1 hs) context hcontext

theorem named_gather {store : Store} (hloaded : ∀ d, store.Loaded d → d.Named) (files : Files) :
    (gather store files).1.Named := by
  have hnamed := ensured_gather Document.ensured_named hloaded files
  have hshown := spelled_gather store files
  constructor
  · exact fun context hshows => hnamed _ (hshown context hshows).1
  · intro context hshows p hp
    obtain ⟨hd, hcontext⟩ := hshown context hshows
    rcases hcontext p hp with heq | ⟨i, hi, heq⟩
    · rw [heq]
      exact (hnamed _ hd).body.prefixId
    · rw [← heq]
      exact (hnamed _ hd).body.imports i hi
  · intro scope hs
    exact hnamed _ (Store.module?_spec ((sound_gather store files).first scope hs)).1

/--
Whether a set comes of an empty one, whatever was done with it and whatever files there were.
-/
def Begun (set : ModuleSet) : Prop :=
  ∃ searchPath history, set = (empty searchPath).afterAll history

variable {set : ModuleSet} {outcome : Outcome}

theorem Begun.ensured {q : Document → Prop} (hq : Document.Ensured q) (h : set.Begun) :
    ∀ d, set.store.Loaded d → q d := by
  obtain ⟨searchPath, history, rfl⟩ := h
  intro d hd
  obtain ⟨batches, hcollects⟩ := afterAll_collects (empty searchPath) history
  rcases hcollects.loaded hd with hd | ⟨batch, hbatch, hd⟩
  · cases d <;> cases hd
  · exact (hcollects.whole batch hbatch).ensured hq d hd

theorem Begun.named (h : set.Begun) : ∀ d, set.store.Loaded d → d.Named :=
  h.ensured Document.ensured_named

theorem Begun.after (h : set.Begun) (files : Files) (operation : Operation) : (set.after files operation).Begun := by
  obtain ⟨searchPath, history, rfl⟩ := h
  refine ⟨searchPath, history ++ [(operation, files)], ?_⟩
  unfold afterAll
  rw [List.foldl_append]
  rfl

theorem after_of_outcome_eq_none (hnone : set.outcome = none) {files : Files} {operation : Operation}
    (h : (set.after files operation).outcome ≠ none) : operation = .process := by
  by_contra hne
  apply h
  cases operation with
  | process => exact absurd rfl hne
  | read | parse => exact (outcome_whileOpen _ _).trans hnone
  | findModule | findSubmodule | module | submodule | locate | topLevel | toEntry => exact hnone

theorem Begun.exists_process (h : set.Begun) (houtcome : set.outcome = some outcome) :
    ∃ store files, Begun ⟨store, none⟩ ∧ (process ⟨store, none⟩ files).2.outcome = some outcome := by
  obtain ⟨searchPath, history, rfl⟩ := h
  induction history using List.reverseRecOn with
  | nil => cases houtcome
  | append_singleton before p ih =>
    have hlast : (empty searchPath).afterAll (before ++ [p]) = ((empty searchPath).afterAll before).after p.2 p.1 := by
      unfold afterAll
      rw [List.foldl_append]
      rfl
    rw [hlast] at houtcome
    have hbefore : Begun ((empty searchPath).afterAll before) := ⟨searchPath, before, rfl⟩
    generalize (empty searchPath).afterAll before = set at ih houtcome hbefore
    obtain ⟨store, known⟩ := set
    cases known with
    | some known =>
      rw [(after_of_outcome rfl p.2 p.1).1] at houtcome
      exact ih houtcome
    | none =>
      have hprocess := after_of_outcome_eq_none rfl (houtcome ▸ Option.some_ne_none outcome)
      rw [hprocess] at houtcome
      exact ⟨store, p.2, hbefore, houtcome⟩

def chest : ModuleSet :=
  plain [.container ⟨"c", none, none, none⟩ [.leaf ⟨.free, "a", "string", none, none, false, none, none⟩]] []

def chestText : String :=
  "module: m\nnamespace: u\nprefix: p\nnodes:\n- kind: container\n  name: c\n"
    ++ "  nodes:\n  - kind: leaf\n    name: a\n    type: string\n"

def isChest : Module → Bool
  | ⟨"m", "u", ⟨"p", none, none, none, none, [], [], [], [],
    [.container ⟨"c", none, none, none⟩
      [.leaf ⟨⟨none, none, none, none, none⟩, "a", "string", none, none, false, none, none⟩]], [], "m.yaml"⟩⟩ => true
  | _ => false

theorem parse_chestText : ∃ m, Document.parse chestText "m.yaml" = .ok [.main m] ∧ chest.store.modules = [m] := by
  obtain ⟨m, hparse, hm⟩ := exists_of_any_soleModule?
    (show (soleModule? (Document.parse chestText "m.yaml")).any isChest = true by decide +kernel)
  refine ⟨m, hparse, ?_⟩
  unfold isChest at hm
  split at hm
  · rfl
  · cases hm

theorem begun_of_parse {text source : String} {m : Module} (hparse : Document.parse text source = .ok [.main m]) :
    Begun ⟨⟨[], [m], [], [], []⟩, none⟩ := by
  refine ⟨[], [(.parse text source, .empty)], ?_⟩
  unfold afterAll
  rw [List.foldl_cons, List.foldl_nil]
  unfold after parse whileOpen loading Store.parse
  dsimp only
  rw [hparse]
  rfl

theorem begun_chest : chest.Begun := by
  obtain ⟨m, hparse, hmodules⟩ := parse_chestText
  cases hmodules
  exact begun_of_parse hparse

theorem process_chest (files : Files) : (chest.process files).1 = .ok [] := by
  unfold chest
  rw [show plain _ _ = ⟨(plain _ _).store, none⟩ from rfl, process_open, gather_plain]
  cbv

end ModuleSet

end Yang

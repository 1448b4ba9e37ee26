import Yang.Proofs.Format.Listed
import Yang.Proofs.ModuleSet.Outlined

/-!
This module contains what the list of the types in use tells about the trees of sets that come of an empty one and were
processed without a problem.
-/

namespace Yang

namespace ModuleSet

theorem Issues.word {tree : Entry} (h : Issues tree) {type : ResolvedType} (htype : tree.InUse type) :
    Outline.Word type.name := by
  obtain ⟨e, he, htype⟩ := htype
  exact (h.spelled e he).type type htype

/--
For each tree that comes of processing without a problem, the list of the types in use has one line for each name that a
type is referred to by. The type of an entry has its own line there exactly when the first entry with such a reference
has a type with the same line, so all types have their lines exactly when types of the same name have the same one.
-/
theorem lists_of_issues {entries : List Entry} (h : ∀ e ∈ entries, Issues e) :
    ∃ formatter listings, Registry.builtin.lookup "types" = some formatter
      ∧ formatter.render entries = .ok (String.join listings.flatten) ∧ List.Forall₂ Entry.Lists entries listings := by
  obtain ⟨formatter, hlookup, hrender⟩ := exists_typesFormat
  refine ⟨formatter, entries.map fun e => typeLinesOf e.name e.walk, hlookup, ?_, ?_⟩
  · rw [hrender, List.flatMap_def]
  · rw [List.forall₂_map_right_iff, List.forall₂_same]
    exact fun e he => Entry.lists_typeLinesOf fun type htype => (h e he).word htype

def sized (name length : String) : Node :=
  .leaf ⟨⟨none, none, some length, none, none⟩, name, "string", none, none, false, none, none⟩

def sizes : ModuleSet :=
  plain [sized "a" "1..4", sized "b" "1..8"] []

def sizedEntry (name length : String) : Entry :=
  .mk { EntryHead.plain name .leaf "p" "u" with
    type := some ⟨"string", "string", [("length", .text length)], [], none, none⟩ } []

def sizesTree : Entry :=
  .mk (EntryHead.plain "m" .module "p" "u") [sizedEntry "a" "1..4", sizedEntry "b" "1..8"]

def sizesText : String :=
  "module: m\nnamespace: u\nprefix: p\nnodes:\n- kind: leaf\n  name: a\n  type: string\n  length: 1..4\n"
    ++ "- kind: leaf\n  name: b\n  type: string\n  length: 1..8\n"

def isSizes : Module → Bool
  | ⟨"m", "u", ⟨"p", none, none, none, none, [], [], [], [],
    [.leaf ⟨⟨none, none, some "1..4", none, none⟩, "a", "string", none, none, false, none, none⟩,
      .leaf ⟨⟨none, none, some "1..8", none, none⟩, "b", "string", none, none, false, none, none⟩], [],
    "m.yaml"⟩⟩ => true
  | _ => false

theorem begun_sizes : sizes.Begun := by
  obtain ⟨m, hparse, hm⟩ := exists_of_any_soleModule?
    (show (soleModule? (Document.parse sizesText "m.yaml")).any isSizes = true by decide +kernel)
  unfold isSizes at hm
  split at hm
  · exact begun_of_parse hparse
  · cases hm

theorem render_sizesTree : ∃ formatter, Registry.builtin.lookup "types" = some formatter
    ∧ formatter.render [sizesTree] = .ok "module: m\n  string: string length=1..4\n" := by
  obtain ⟨formatter, hlookup, hrender⟩ := exists_typesFormat
  refine ⟨formatter, hlookup, ?_⟩
  rw [hrender]
  cbv

theorem process_sizes (files : Files) :
    (sizes.process files).1 = .ok [] ∧ (sizes.process files).2.toEntry "m" = .ok sizesTree := by
  unfold sizes
  rw [show plain _ _ = ⟨(plain _ _).store, none⟩ from rfl, process_open, gather_plain]
  exact ⟨by cbv, by cbv⟩

theorem issues_sizesTree : Issues sizesTree :=
  ⟨sizes, .empty, begun_sizes, (process_sizes _).1, "m", sizesTree, (process_sizes _).2, rfl⟩

theorem lists_of_issues_sample : (∀ e ∈ [sizesTree], Issues e)
    ∧ ∃ formatter listings, Registry.builtin.lookup "types" = some formatter
      ∧ formatter.render [sizesTree] = .ok (String.join listings.flatten)
      ∧ List.Forall₂ Entry.Lists [sizesTree] listings :=
  have h : ∀ e ∈ [sizesTree], Issues e := List.forall_mem_singleton.2 issues_sizesTree
  ⟨h, lists_of_issues h⟩

theorem not_listed_sizes : sizes.Begun ∧ (sizes.process .empty).1 = .ok []
    ∧ (sizes.process .empty).2.toEntry "m" = .ok sizesTree
    ∧ ∃ formatter text e type, Registry.builtin.lookup "types" = some formatter
      ∧ formatter.render [sizesTree] = .ok text ∧ text = "module: m\n  string: string length=1..4\n"
      ∧ Entry.Within e sizesTree ∧ e.head.type = some type ∧ type.listed = "  string: string length=1..8\n"
      ∧ ¬ type.listed.toList <:+: text.toList := by
  obtain ⟨formatter, hlookup, hrender⟩ := render_sizesTree
  have hlisted : (ResolvedType.mk "string" "string" [("length", .text "1..8")] [] none none).listed
      = "  string: string length=1..8\n" := by cbv
  refine ⟨begun_sizes, (process_sizes _).1, (process_sizes _).2, formatter, _, sizedEntry "b" "1..8", _, hlookup,
    hrender, rfl, .child (List.mem_cons_of_mem _ List.mem_cons_self) (.self _), rfl, hlisted, ?_⟩
  rw [hlisted]
  decide

end ModuleSet

end Yang

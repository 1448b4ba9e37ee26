import Yang.Proofs.Format.Legible
import Yang.Proofs.ModuleSet.Closed

/-!
This module contains what the JSON form tells about the trees of sets that were processed without a problem: everything
but the order of children, where entries below the root belong, and whether a text has the halves of a pair or the
character that the pair stands for.
-/

namespace Yang

namespace ModuleSet

/--
Whether a tree is that of a module in a set that was processed without a problem.
-/
def Yields (tree : Entry) : Prop :=
  ∃ set files, Reachable set ∧ (set.process files).1 = .ok []
    ∧ ∃ name, (set.process files).2.toEntry name = .ok tree

theorem Yields.exists_outcome {tree : Entry} (h : Yields tree) :
    ∃ outcome, Arises outcome ∧ outcome.problems = [] ∧ tree ∈ outcome.forest := by
  obtain ⟨set, files, hreachable, hok, name, htree⟩ := h
  obtain ⟨forest, houtcome⟩ := outcome_of_process_eq_ok hok
  refine ⟨_, (Reachable.process files hreachable).arises houtcome, rfl, ?_⟩
  unfold toEntry at htree
  rw [houtcome] at htree
  dsimp only at htree
  split at htree
  · next hnamed =>
    cases htree
    exact (Entry.named?_spec hnamed).1
  · cases htree

theorem Yields.kind {tree : Entry} (h : Yields tree) : tree.head.kind = .module := by
  obtain ⟨outcome, harises, hnil, htree⟩ := h.exists_outcome
  exact (harises.thriving hnil tree htree).kind

theorem Yields.regular {tree : Entry} (h : Yields tree) : tree.All (fun head _ => head.Regular) := by
  obtain ⟨outcome, harises, hnil, htree⟩ := h.exists_outcome
  obtain ⟨_, hflourishes⟩ := harises.flourishes hnil
  exact hflourishes.regular tree htree

/--
Trees of sets that were processed without a problem are the same when the same JSON is written for them, but for the
order of children and the halves of pairs.
-/
theorem tallies_of_yields {entries entries' : List Entry} {text : String} (hyields : ∀ e ∈ entries, Yields e)
    (hyields' : ∀ e ∈ entries', Yields e) (h : renderJson entries = .ok text) (h' : renderJson entries' = .ok text) :
    List.Forall₂ (fun e e' => Text.Same e.head.uri e'.head.uri ∧ e.inOrder.Tallies e'.inOrder) entries entries' := by
  have htallies := Entry.tallies_of_renderJson (fun e he => (hyields e he).regular)
    (fun e he => (hyields' e he).regular) h h'
  have hroots := (List.forall₂_and_left entries entries').2 ⟨fun e he => (hyields e he).kind, htallies⟩
  refine hroots.imp ?_
  rintro e e' ⟨hkind, htally⟩
  have hhead := htally.head
  rw [Entry.head_inOrder, Entry.head_inOrder] at hhead
  exact ⟨hhead.uri hkind, htally⟩

theorem yields_alone {m : Module} {tree : Entry} (hincludes : m.body.includes = []) (himports : m.body.imports = [])
    (htypedefs : m.body.typedefs = []) (hgroupings : m.body.groupings = [])
    (hproblems : (Scopes.forest [⟨m, [.first m.name (.main m)]⟩]).2.problems = [])
    (htree : Entry.named? m.name (Scopes.forest [⟨m, [.first m.name (.main m)]⟩]).1 = some tree) : Yields tree := by
  refine ⟨⟨⟨[], [m], [], [], []⟩, none⟩, .empty, .opened _, ?_, m.name, ?_⟩
  · rw [process_open, gather_alone rfl hincludes himports htypedefs hgroupings]
    dsimp only
    rw [hproblems]
    rfl
  · rw [process_open, gather_alone rfl hincludes himports htypedefs hgroupings]
    unfold toEntry
    dsimp only
    rw [htree]

def smallLeaf : Node :=
  .leaf ⟨⟨none, some "1..8", none, none, none⟩, "a", "int8", none, none, false, none, none⟩

def bareContainer : Node :=
  .container ⟨"c", none, none, none⟩ []

def smallEntry : Entry :=
  .mk { EntryHead.plain "a" .leaf "p" "u" with
    type := some ⟨"int8", "int8", [("range", .text "1..8")], [], none, none⟩ } []

def bareEntry : Entry :=
  .mk (EntryHead.plain "c" .container "p" "u") []

def moduleTree (first second : Entry) : Entry :=
  .mk (EntryHead.plain "m" .module "p" "u") [first, second]

def treeText : String :=
  "[\n  \x7b\n    \"name\": \"m\",\n    \"node\": \"module\",\n    \"prefix\": \"p\",\n    \"config\": true,\n"
    ++ "    \"namespace\": \"u\",\n    \"children\": \x7b\n"
    ++ "      \"a\": \x7b\n        \"name\": \"a\",\n        \"node\": \"leaf\",\n        \"prefix\": \"p\",\n"
    ++ "        \"config\": true,\n        \"type\": \x7b\n          \"name\": \"int8\",\n"
    ++ "          \"base\": \"int8\",\n          \"range\": \"1..8\"\n        \x7d\n      \x7d,\n"
    ++ "      \"c\": \x7b\n        \"name\": \"c\",\n        \"node\": \"container\",\n        \"prefix\": \"p\",\n"
    ++ "        \"config\": true\n      \x7d\n    \x7d\n  \x7d\n]\n"

theorem inOrder_moduleTree : (moduleTree bareEntry smallEntry).inOrder = moduleTree smallEntry bareEntry
    ∧ (moduleTree smallEntry bareEntry).inOrder = moduleTree smallEntry bareEntry :=
  ⟨by cbv, by cbv⟩

theorem renderJson_moduleTree : renderJson [moduleTree smallEntry bareEntry] = .ok treeText := by
  have hjson : (moduleTree smallEntry bareEntry).toJson = (moduleTree smallEntry bareEntry).membersOf := by
    unfold Entry.toJson
    rw [inOrder_moduleTree.2]
  unfold renderJson
  rw [List.map_singleton, hjson]
  exact eq_ok_of_toOption (by decide +kernel)

theorem tallies_of_yields_sample :
    (∀ e ∈ [moduleTree smallEntry bareEntry], Yields e) ∧ (∀ e ∈ [moduleTree bareEntry smallEntry], Yields e)
      ∧ renderJson [moduleTree smallEntry bareEntry] = .ok treeText
      ∧ renderJson [moduleTree bareEntry smallEntry] = .ok treeText
      ∧ List.Forall₂ (fun e e' => Text.Same e.head.uri e'.head.uri ∧ e.inOrder.Tallies e'.inOrder)
        [moduleTree smallEntry bareEntry] [moduleTree bareEntry smallEntry] :=
  have hyields : ∀ e ∈ [moduleTree smallEntry bareEntry], Yields e := by
    rw [List.forall_mem_singleton]
    exact yields_alone (m := plainModule [smallLeaf, bareContainer] []) rfl rfl rfl rfl (by cbv) (by cbv)
  have hyields' : ∀ e ∈ [moduleTree bareEntry smallEntry], Yields e := by
    rw [List.forall_mem_singleton]
    exact yields_alone (m := plainModule [bareContainer, smallLeaf] []) rfl rfl rfl rfl (by cbv) (by cbv)
  have h : renderJson [moduleTree smallEntry bareEntry] = .ok treeText := renderJson_moduleTree
  have h' : renderJson [moduleTree bareEntry smallEntry] = .ok treeText := by
    rw [← h]
    apply renderJson_eq_of_inOrder
    rw [List.map_singleton, List.map_singleton, inOrder_moduleTree.1, inOrder_moduleTree.2]
  ⟨hyields, hyields', h, h', tallies_of_yields hyields hyields' h h'⟩

def describedModule (description : String) : Module :=
  ⟨"m", "u", ⟨"p", none, none, some description, none, [], [], [], [], [], [], "m.yaml"⟩⟩

def describedTree (description : String) : Entry :=
  .mk (describedModule description).head []

theorem yields_described (description : String) : Yields (describedTree description) :=
  yields_alone (m := describedModule description) rfl rfl rfl rfl (by cbv) (by cbv)

def halves : String :=
  String.ofList [Text.surrogateMark, '\uE000', Text.surrogateMark, '\uE400']

def paired : String :=
  String.singleton (Char.ofNat 0x10000)

def pairText : String :=
  "[\n  \x7b\n    \"name\": \"m\",\n    \"node\": \"module\",\n    \"prefix\": \"p\",\n    \"config\": true,\n"
    ++ "    \"namespace\": \"u\",\n    \"description\": \"\\ud800\\udc00\"\n  \x7d\n]\n"

theorem renderJson_halves : Yields (describedTree halves) ∧ Yields (describedTree paired)
    ∧ renderJson [describedTree halves] = .ok pairText ∧ renderJson [describedTree paired] = .ok pairText
    ∧ (describedTree halves).head.description.map (fun s => Text.codes s.toList) = some [0xD800, 0xDC00]
    ∧ (describedTree paired).head.description.map (fun s => Text.codes s.toList) = some [0x10000] :=
  have h : renderJson [describedTree halves] = .ok pairText := eq_ok_of_toOption (by decide +kernel)
  have h' : renderJson [describedTree paired] = .ok pairText := eq_ok_of_toOption (by decide +kernel)
  ⟨yields_described _, yields_described _, h, h', by decide, by decide⟩

end ModuleSet

end Yang

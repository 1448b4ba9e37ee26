import Yang.Proofs.ModuleSet.Augmented
import Yang.Proofs.Tree.Pieces

/-!
This module contains the modules that entries belong to. An entry belongs to the module that it is made for, wherever
its node stands. So what is below the root of a tree belongs to its module, and an entry that belongs to another module
than the entry above it has come there with an augment of its own module.
-/

namespace Yang

namespace Entry

theorem Within.descend? {e tree : Entry} (h : Within e tree) (hdistinct : tree.All Distinct) :
    ∃ names, tree.descend? names = some e := by
  induction h with
  | self => exact ⟨[], rfl⟩
  | @child c tree hc _ ih =>
    obtain ⟨names, hnames⟩ := ih (hdistinct.child hc)
    have hself := hdistinct.self
    unfold Distinct at hself
    rw [← names_eq] at hself
    refine ⟨c.name :: names, ?_⟩
    unfold Entry.descend? child?
    rw [named?_of_mem hself hc, Option.bind_some, hnames]

theorem Orderly.exists_way {forest : List Entry} {tree e c : Entry} (ho : Orderly forest) (htree : tree ∈ forest)
    (he : Within e tree) (hchild : c ∈ e.children) :
    ∃ names, named? tree.name forest = some tree ∧ tree.descend? names = some e
      ∧ At forest (tree.name :: names) e.head ∧ At forest (tree.name :: names ++ [c.name]) c.head := by
  have hnamed := named?_of_mem ho.names htree
  obtain ⟨names, hnames⟩ := he.descend? (ho.below tree htree)
  refine ⟨names, hnamed, hnames, at_of_descend? hnamed hnames, ?_⟩
  exact (at_below_iff ho hnamed hnames (List.cons_ne_nil _ _)).2 (at_of_mem hchild)

end Entry

namespace Piece

variable {scopes : Scopes} {piece : Piece} {way : List String} {name : String} {head : EntryHead}

theorem Sound.springs (h : piece.Sound scopes) (hfinds : piece.Finds way head) :
    ∃ context node, scopes.Stems piece.context piece.nodes context node
      ∧ scopes.Makes piece.scope.main.asOwner context node head := by
  obtain ⟨rest, _, hat⟩ := hfinds
  obtain ⟨context, node, hstems, hmakes, _⟩ := h.bears.springs hat
  exact ⟨context, node, hstems, hmakes⟩

theorem Finds.concat (h : piece.Finds (way ++ [name]) head) :
    (way = piece.place ∧ Entry.At piece.entries [name] head) ∨ ∃ above, piece.Finds way above := by
  obtain ⟨rest, hway, hat⟩ := h
  rcases List.eq_nil_or_concat' rest with rfl | ⟨before, last, rfl⟩
  · exact (Entry.not_at_nil hat).elim
  · rw [← List.append_assoc] at hway
    obtain ⟨rfl, hlast⟩ := List.append_inj' hway rfl
    rw [← hlast] at hat
    by_cases hnil : before = []
    · subst hnil
      exact .inl ⟨List.append_nil _, hat⟩
    · obtain ⟨above, habove⟩ := hat.take hnil
      exact .inr ⟨above, before, rfl, habove⟩

theorem Grafted.ne_root {forest : Forest} {graft : Graft} {target : Target} (h : piece.Grafted graft target)
    (hverdict : scopes.verdict forest graft = .grafted target) (name : String) : piece.place ≠ [name] := by
  unfold Scopes.verdict at hverdict
  split at hverdict
  · cases hverdict
  · cases hverdict
  · next htarget =>
    cases hverdict
    obtain ⟨_, _, _, _, _, _, rfl, _, _⟩ := (Scopes.target_eq_some_iff.1 htarget).found
    rw [h.place]
    nofun

end Piece

namespace Scopes

/--
Whether a node in a document is expanded for the sake of a module: it stems from the nodes or from an augment of one of
the documents of the module.
-/
def ExpandsFor (scopes : Scopes) (scope : Scope) (context : Context) (node : Node) : Prop :=
  ∃ first ∈ scope.contexts, ∃ nodes, scopes.Stems first nodes context node
    ∧ (nodes = first.document.body.nodes ∨ ∃ augment ∈ first.document.body.augments, nodes = augment.nodes)

/--
Whether all entries of a forest belong to the modules that they are made for.
-/
structure Owned (scopes : Scopes) (forest : Forest) : Prop where
  pieces : ∃ pieces, Consists scopes scopes forest pieces ∧ ∀ piece ∈ pieces, piece.Warranted scopes forest
  origins : ∀ tree ∈ forest, ∀ e, Entry.Within e tree → ∀ c ∈ e.children, ∃ scope ∈ scopes, ∃ context node,
    scopes.ExpandsFor scope context node
      ∧ scopes.Shows context ∧ (∃ beside, context.document.Holds beside ∧ node ∈ beside)
      ∧ scopes.Makes scope.main.asOwner context node c.head
  roots : ∀ tree ∈ forest, ∀ c ∈ tree.children,
    c.head.prefixId = tree.head.prefixId ∧ c.head.uri = tree.head.uri
  strangers : ∀ tree ∈ forest, ∀ e, Entry.Within e tree → ∀ c ∈ e.children, c.head.uri ≠ e.head.uri →
    ∃ scope ∈ scopes, scope.main.uri = c.head.uri
      ∧ ∃ context ∈ scope.contexts, ∃ augment ∈ context.document.body.augments,
        (∃ target, scopes.target forest ⟨context, augment⟩ = .ok (some (e, target)))
          ∧ ∃ context' node, scopes.Expands context augment.nodes context' node
            ∧ scopes.Makes scope.main.asOwner context' node c.head

section

variable {scopes : Scopes} {forest : Forest} {pieces : List Piece} {way : List String} {name : String}
  {head above : EntryHead}

theorem Consists.concat (h : Consists scopes scopes forest pieces) (ho : Entry.Orderly forest)
    (habove : Entry.At forest way above) (hat : Entry.At forest (way ++ [name]) head) :
    ∃ piece ∈ pieces, piece.Finds (way ++ [name]) head
      ∧ ((way = piece.place ∧ Entry.At piece.entries [name] head)
        ∨ (head.prefixId = above.prefixId ∧ head.uri = above.uri)) := by
  rcases (h.ways _ _).1 hat with ⟨scope, _, hway, _⟩ | ⟨piece, hpiece, hfinds⟩
  · have hlength := congrArg List.length hway
    rw [List.length_append, List.length_singleton, List.length_singleton, Nat.add_eq_right,
      List.length_eq_zero_iff] at hlength
    exact absurd hlength (Entry.ne_nil_of_at habove)
  · refine ⟨piece, hpiece, hfinds, ?_⟩
    rcases hfinds.concat with htop | ⟨above', habove'⟩
    · exact .inl htop
    · -- both are made for the sake of the module of the piece
      have hsame := habove.unique ho ((h.ways _ _).2 (.inr ⟨piece, hpiece, habove'⟩))
      obtain ⟨_, _, _, hmakes⟩ := (h.sound piece hpiece).springs hfinds
      obtain ⟨_, _, _, hmakes'⟩ := (h.sound piece hpiece).springs habove'
      rw [hsame, hmakes.prefixId, hmakes.uri, hmakes'.prefixId, hmakes'.uri]
      exact .inr ⟨rfl, rfl⟩

theorem Consists.own (h : Consists scopes scopes forest pieces) (ho : Entry.Orderly forest) {piece : Piece}
    (hpiece : piece ∈ pieces) (hown : piece.Own) (habove : Entry.At forest piece.place above)
    (hfinds : piece.Finds way head) : head.prefixId = above.prefixId ∧ head.uri = above.uri := by
  have hsound := h.sound piece hpiece
  obtain ⟨_, _, _, hmakes⟩ := hsound.springs hfinds
  have hroot : Entry.At forest [piece.scope.main.name] piece.scope.main.head :=
    (h.ways _ _).2 (.inl ⟨piece.scope, hsound.scope, rfl, rfl⟩)
  rw [hown.place] at habove
  rw [habove.unique ho hroot, hmakes.prefixId, hmakes.uri]
  exact ⟨rfl, rfl⟩

theorem expandsFor_of_warranted {piece : Piece} (hsound : piece.Sound scopes)
    (hwarranted : piece.Warranted scopes forest) {context : Context} {node : Node}
    (hstems : scopes.Stems piece.context piece.nodes context node) :
    scopes.ExpandsFor piece.scope context node
      ∧ scopes.Shows context ∧ ∃ beside, context.document.Holds beside ∧ node ∈ beside := by
  have hshows : scopes.Shows piece.context := ⟨piece.scope, hsound.scope, hsound.context⟩
  rcases hwarranted with hown | ⟨graft, _, target, _, hgrafted⟩
  · refine ⟨⟨_, hsound.context, _, hstems, .inl hown.nodes⟩, hstems.stands hshows ?_⟩
    rw [hown.nodes]
    exact .nodes
  · refine ⟨⟨_, hsound.context, _, hstems, .inr ⟨_, hgrafted.augment, hgrafted.nodes⟩⟩, hstems.stands hshows ?_⟩
    rw [hgrafted.nodes]
    exact .augment hgrafted.augment

end

theorem target_of_verdict {scopes : Scopes} {forest : Forest} {graft : Graft} {target : Target} {tree e : Entry}
    {names : List String} (hverdict : scopes.verdict forest graft = .grafted target)
    (hplace : tree.name :: names = target.module :: target.names)
    (hnamed : Entry.named? tree.name forest = some tree) (hnames : tree.descend? names = some e) :
    scopes.target forest graft = .ok (some (e, target)) := by
  obtain ⟨hmodule, rfl⟩ := List.cons.inj hplace
  unfold verdict at hverdict
  split at hverdict
  · cases hverdict
  · cases hverdict
  · next entry _ htarget =>
    cases hverdict
    obtain ⟨tree', htree', hentry⟩ := (target_eq_some_iff.1 htarget).path
    rw [← hmodule, hnamed] at htree'
    cases htree'
    rw [hnames] at hentry
    cases hentry
    exact htarget

theorem owned_forest {scopes : Scopes} (hc : scopes.Coherent) : Owned scopes scopes.forest.1 := by
  obtain ⟨pieces, hconsists, hwarranted⟩ := forest_consists hc
  have hheads := scopes.heads_forest
  generalize scopes.forest.1 = forest at hconsists hwarranted hheads
  have ho : Entry.Orderly forest := by
    refine ⟨?_, hconsists.distinct⟩
    rw [Entry.names_eq, hheads, List.map_map]
    exact hc.distinct
  refine ⟨⟨pieces, hconsists, hwarranted⟩, ?_, ?_, ?_⟩
  · intro tree htree e he c hchild
    obtain ⟨names, _, _, habove, hat⟩ := ho.exists_way htree he hchild
    obtain ⟨piece, hpiece, hfinds, _⟩ := hconsists.concat ho habove hat
    have hsound := hconsists.sound piece hpiece
    obtain ⟨context, node, hstems, hmakes⟩ := hsound.springs hfinds
    obtain ⟨hfor, hshows, hholds⟩ := expandsFor_of_warranted hsound (hwarranted piece hpiece) hstems
    exact ⟨piece.scope, hsound.scope, context, node, hfor, hshows, hholds, hmakes⟩
  · intro tree htree c hchild
    have hnamed := Entry.named?_of_mem ho.names htree
    have hroot : Entry.At forest [tree.name] tree.head := Entry.at_of_mem htree
    have hat : Entry.At forest ([tree.name] ++ [c.name]) c.head :=
      (Entry.at_below_iff ho hnamed rfl (List.cons_ne_nil _ _)).2 (Entry.at_of_mem hchild)
    obtain ⟨piece, hpiece, hfinds, ⟨hplace, _⟩ | hsame⟩ := hconsists.concat ho hroot hat
    · rcases hwarranted piece hpiece with hown | ⟨graft, _, target, hverdict, hgrafted⟩
      · rw [hplace] at hroot
        exact hconsists.own ho hpiece hown hroot hfinds
      · exact absurd hplace.symm (hgrafted.ne_root hverdict _)
    · exact hsame
  · intro tree htree e he c hchild hne
    obtain ⟨names, hnamed, hnames, habove, hat⟩ := ho.exists_way htree he hchild
    obtain ⟨piece, hpiece, hfinds, ⟨hplace, hlast⟩ | ⟨_, hsame⟩⟩ := hconsists.concat ho habove hat
    · rcases hwarranted piece hpiece with hown | ⟨graft, _, target, hverdict, hgrafted⟩
      · rw [hplace] at habove
        exact absurd (hconsists.own ho hpiece hown habove hfinds).2 hne
      · have hsound := hconsists.sound piece hpiece
        obtain ⟨context, node, _, hmakes, htop⟩ := hsound.bears.springs hlast
        have hexpands := htop rfl
        rw [← hgrafted.context, hgrafted.nodes] at hexpands
        refine ⟨piece.scope, hsound.scope, hmakes.uri.symm, graft.context, hgrafted.context ▸ hsound.context,
          graft.augment, hgrafted.context ▸ hgrafted.augment, ⟨target, ?_⟩, context, node, hexpands, hmakes⟩
        rw [hgrafted.place] at hplace
        exact target_of_verdict hverdict hplace hnamed hnames
    · exact absurd hsame hne

theorem Owned.origin {scopes : Scopes} {forest : Forest} (h : scopes.Owned forest)
    (hheads : forest.map Entry.head = scopes.map (fun scope => scope.main.head)) {tree e : Entry}
    (htree : tree ∈ forest)
    (he : Entry.Within e tree) :
    (∃ scope ∈ scopes, e.head = scope.main.head) ∨ ∃ scope ∈ scopes, ∃ context node,
      scopes.ExpandsFor scope context node
        ∧ scopes.Shows context ∧ (∃ beside, context.document.Holds beside ∧ node ∈ beside)
        ∧ scopes.Makes scope.main.asOwner context node e.head := by
  rcases he.eq_or_child with rfl | ⟨parent, hparent, hchild⟩
  · have hhead : e.head ∈ scopes.map (fun scope => scope.main.head) := hheads ▸ List.mem_map_of_mem htree
    obtain ⟨scope, hs, heq⟩ := List.mem_map.1 hhead
    exact .inl ⟨scope, hs, heq.symm⟩
  · exact .inr (h.origins tree htree parent hparent e hchild)

end Scopes

namespace ModuleSet

/--
When a set was processed, whatever problems were found, every entry belongs to the module that it is made for, wherever
its node stands. What is below the root of a tree belongs to its module, and an entry that does not belong where the
entry above it does was grafted there by an augment of its own module.
-/
theorem process_owned {store : Store} {files : Files} {problems : List Diagnostic}
    (hok : (process ⟨store, none⟩ files).1 = .ok problems) :
    ∃ forest, (process ⟨store, none⟩ files).2.outcome = some ⟨problems, forest⟩
      ∧ Scopes.Owned (gather store files).1 forest := by
  rw [process_open] at hok ⊢
  split at hok
  · cases hok
  · cases hok
    exact ⟨_, rfl, Scopes.owned_forest (sound_gather store files).coherent⟩

def lendingModule : Module :=
  ⟨"m", "u", ⟨"p", none, none, none, none, [], [], [],
    [⟨"g", none, [.leaf ⟨.free, "a", "string", none, none, true, none, none⟩]⟩],
    [.container ⟨"c", none, none, none⟩ []], [], "m.yaml"⟩⟩

def borrowingModule : Module :=
  ⟨"n", "w", ⟨"q", none, none, none, none, [⟨"m", "x"⟩], [], [], [], [.uses ⟨"x:g", none⟩],
    [⟨"/x:c", none, [.uses ⟨"x:g", none⟩]⟩], "n.yaml"⟩⟩

def borrowing : Store :=
  (Store.empty []).addAll [.main borrowingModule, .main lendingModule]

theorem gather_borrowing (files : Files) : gather borrowing files
    = ([⟨lendingModule, [⟨.main lendingModule, "m", [("p", "m")]⟩]⟩,
        ⟨borrowingModule, [⟨.main borrowingModule, "n", [("q", "n"), ("x", "m")]⟩]⟩],
      ⟨(borrowing.note (.collected "m" 1)).note (.collected "n" 1), [], none⟩) := by
  have hall : Gathering.all files [] [] ⟨borrowing, [], none⟩
      = ([⟨lendingModule, [⟨.main lendingModule, "m", [("p", "m")]⟩]⟩,
          ⟨borrowingModule, [⟨.main borrowingModule, "n", [("q", "n"), ("x", "m")]⟩]⟩],
        ⟨(borrowing.note (.collected "m" 1)).note (.collected "n" 1), [], none⟩) := by
    rw [@Gathering.all_of_next_eq_some _ _ _ ["n"] lendingModule]
    · rw [@Gathering.all_of_next_eq_some _ _ _ [] borrowingModule]
      · rw [Gathering.all_of_next_eq_none]
        · cbv
        · cbv
      · cbv
    · cbv
  unfold gather
  rw [hall]
  cbv

theorem process_borrowing (files : Files) : (process ⟨borrowing, none⟩ files).1 = .ok [] := by
  rw [process_open, gather_borrowing]
  cbv

theorem process_owned_borrowing : (process ⟨borrowing, none⟩ .empty).1 = .ok []
    ∧ ∃ forest, (process ⟨borrowing, none⟩ .empty).2.outcome = some ⟨[], forest⟩
      ∧ Scopes.Owned (gather borrowing .empty).1 forest :=
  ⟨process_borrowing _, process_owned (process_borrowing _)⟩

end ModuleSet

end Yang

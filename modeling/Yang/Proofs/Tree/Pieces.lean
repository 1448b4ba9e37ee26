import Yang.Proofs.Tree.Borne
import Yang.Proofs.Tree.Verdict

/-!
This module contains the pieces of which forests consist, whatever problems were found: what the documents of a module
bear below its root, and what augments bear below the entries that they go to. Every entry is found in a piece, or it is
the root of a tree.
-/

namespace Yang

structure Piece where
  scope : Scope
  context : Context
  nodes : List Node
  place : List String
  entries : List Entry

namespace Piece

def Finds (piece : Piece) (way : List String) (head : EntryHead) : Prop :=
  ∃ rest, way = piece.place ++ rest ∧ Entry.At piece.entries rest head

structure Sound (scopes : Scopes) (piece : Piece) : Prop where
  scope : piece.scope ∈ scopes
  context : piece.context ∈ piece.scope.contexts
  bears : scopes.Bears piece.scope.main.asOwner piece.context piece.nodes piece.entries

structure Own (piece : Piece) : Prop where
  nodes : piece.nodes = piece.context.document.body.nodes
  place : piece.place = [piece.scope.main.name]

structure Grafted (piece : Piece) (graft : Graft) (target : Target) : Prop where
  context : graft.context = piece.context
  augment : graft.augment ∈ piece.context.document.body.augments
  nodes : piece.nodes = graft.augment.nodes
  place : piece.place = target.module :: target.names

def Warranted (scopes : Scopes) (forest : Forest) (piece : Piece) : Prop :=
  piece.Own ∨ ∃ graft ∈ scopes.grafts, ∃ target,
    scopes.verdict forest graft = .grafted target ∧ piece.Grafted graft target

end Piece

def Finds (pieces : List Piece) (way : List String) (head : EntryHead) : Prop :=
  ∃ piece ∈ pieces, piece.Finds way head

theorem finds_append {pieces more : List Piece} {way : List String} {head : EntryHead} :
    Finds (pieces ++ more) way head ↔ Finds pieces way head ∨ Finds more way head := by
  unfold Finds
  simp only [List.mem_append, or_and_right, exists_or]

theorem not_finds_nil {way : List String} {head : EntryHead} : ¬ Finds [] way head := by
  rintro ⟨piece, hpiece, _⟩
  exact nomatch hpiece

theorem finds_singleton {piece : Piece} {way : List String} {head : EntryHead} :
    Finds [piece] way head ↔ piece.Finds way head := by
  unfold Finds
  simp only [List.mem_singleton, exists_eq_left]

namespace Scopes

variable {scopes : Scopes} {scope : Scope} {w w' : Work} {way : List String} {head : EntryHead}

theorem addDocuments_pieces (hc : scopes.Coherent) (hs : scope ∈ scopes) (hw : scopes.Reached w) (spot : Spot)
    {contexts : List Context} (hcontexts : ∀ context ∈ contexts, context ∈ scope.contexts)
    (children : List Entry) (hnames : (children.map Entry.name).Nodup) :
    ∃ pieces : List Piece,
      (scopes.addDocuments spot scope.main.asOwner contexts children w).1 = children ++ pieces.flatMap Piece.entries
        ∧ (((children ++ pieces.flatMap Piece.entries).map Entry.name).Nodup
          ∧ ∀ e ∈ pieces.flatMap Piece.entries, e.All Entry.Distinct)
        ∧ ∀ piece ∈ pieces, piece.Sound scopes ∧ piece.Own ∧ piece.scope = scope := by
  induction contexts generalizing children w with
  | nil =>
    refine ⟨[], (List.append_nil _).symm, ⟨?_, List.forall_mem_nil _⟩, List.forall_mem_nil _⟩
    rw [List.flatMap_nil, List.append_nil]
    exact hnames
  | cons context rest ih =>
    rw [List.forall_mem_cons] at hcontexts
    have hadds := adds_addNodes scopes scope.main.asOwner [] spot context context.document.body.nodes children w
    have hw₁ := hadds.reached hw
    obtain ⟨grown, heq, hgrown, hkept, hdistinct⟩ := hadds.bears hc hw
    obtain ⟨pieces, hmore, ⟨hnames', hdistinct'⟩, hpieces⟩ := ih hw₁ hcontexts.2 _ (hkept hnames)
    refine ⟨⟨scope, context, context.document.body.nodes, [scope.main.name], grown⟩ :: pieces, ?_, ⟨?_, ?_⟩, ?_⟩
    · rw [List.flatMap_cons, ← List.append_assoc, ← heq]
      exact hmore
    · rw [List.flatMap_cons, ← List.append_assoc, ← heq]
      exact hnames'
    · rw [List.flatMap_cons, List.forall_mem_append]
      exact ⟨hdistinct, hdistinct'⟩
    · rw [List.forall_mem_cons]
      exact ⟨⟨⟨hs, hcontexts.1, hgrown⟩, ⟨rfl, rfl⟩, rfl⟩, hpieces⟩

theorem at_flatMap {pieces : List Piece} :
    Entry.At (pieces.flatMap Piece.entries) way head ↔ ∃ piece ∈ pieces, Entry.At piece.entries way head := by
  induction pieces with
  | nil => simp [Entry.not_at_empty]
  | cons piece rest ih =>
    rw [List.flatMap_cons, Entry.at_append, ih]
    simp

def Rooted (list : List Scope) (way : List String) (head : EntryHead) : Prop :=
  ∃ scope ∈ list, way = [scope.main.name] ∧ head = scope.main.head

theorem rooted_append {list more : List Scope} :
    Rooted (list ++ more) way head ↔ Rooted list way head ∨ Rooted more way head := by
  unfold Rooted
  simp only [List.mem_append, or_and_right, exists_or]

/--
Whether the entries of a forest are the roots of the trees of some modules and those of pieces. Siblings have different
names everywhere below the roots.
-/
structure Consists (scopes : Scopes) (list : List Scope) (forest : Forest) (pieces : List Piece) : Prop where
  sound : ∀ piece ∈ pieces, piece.Sound scopes
  ways : ∀ way head, Entry.At forest way head ↔ Rooted list way head ∨ Finds pieces way head
  distinct : ∀ tree ∈ forest, tree.All Entry.Distinct

theorem build_consists (hc : scopes.Coherent) (hs : scope ∈ scopes) (hw : scopes.Reached w) :
    ∃ pieces, Consists scopes [scope] [(scopes.build scope hs w).1] pieces ∧ ∀ piece ∈ pieces, piece.Own := by
  obtain ⟨pieces, heq, ⟨hnames, hdistinct⟩, hpieces⟩ :=
    addDocuments_pieces hc hs hw ⟨scope.main.head, []⟩ (fun _ h => h) [] List.nodup_nil
  rw [List.nil_append] at heq hnames
  unfold build
  dsimp only
  rw [heq]
  refine ⟨pieces, ⟨fun piece hpiece => (hpieces piece hpiece).1, fun way head => ?_, ?_⟩,
    fun piece hpiece => (hpieces piece hpiece).2.1⟩
  · unfold Rooted Finds Piece.Finds
    simp only [List.mem_singleton, exists_eq_left]
    have hplace : ∀ piece ∈ pieces, piece.place = [scope.main.name] := by
      intro piece hpiece
      obtain ⟨_, hown, hscope⟩ := hpieces piece hpiece
      rw [hown.place, hscope]
    cases way with
    | nil =>
      constructor
      · exact fun hat => (Entry.not_at_nil hat).elim
      · rintro (⟨hway, _⟩ | ⟨piece, hpiece, rest, hway, _⟩)
        · cases hway
        · rw [hplace piece hpiece] at hway
          cases hway
    | cons name rest =>
      rw [Entry.at_cons_entry]
      constructor
      · rintro (⟨rfl, ⟨rfl, rfl⟩ | hat⟩ | hat)
        · exact .inl ⟨rfl, rfl⟩
        · obtain ⟨piece, hpiece, hat⟩ := at_flatMap.1 hat
          exact .inr ⟨piece, hpiece, rest, by rw [hplace piece hpiece]; rfl, hat⟩
        · exact (Entry.not_at_empty hat).elim
      · rintro (⟨hway, rfl⟩ | ⟨piece, hpiece, rest', hway, hat⟩)
        · cases hway
          exact .inl ⟨rfl, .inl ⟨rfl, rfl⟩⟩
        · rw [hplace piece hpiece] at hway
          cases hway
          exact .inl ⟨rfl, .inr (at_flatMap.2 ⟨piece, hpiece, hat⟩)⟩
  · rw [List.forall_mem_singleton, Entry.all_mk_iff]
    refine ⟨?_, hdistinct⟩
    unfold Entry.Distinct
    rw [← Entry.names_eq]
    exact hnames

theorem Consists.append {list more : List Scope} {forest forest' : Forest} {pieces pieces' : List Piece}
    (h : Consists scopes list forest pieces) (h' : Consists scopes more forest' pieces') :
    Consists scopes (list ++ more) (forest ++ forest') (pieces ++ pieces') where
  sound := List.forall_mem_append.2 ⟨h.sound, h'.sound⟩
  ways := by
    intro way head
    rw [Entry.at_append, h.ways, h'.ways, finds_append, rooted_append]
    exact or_or_or_comm
  distinct := List.forall_mem_append.2 ⟨h.distinct, h'.distinct⟩

theorem buildAll_consists (hc : scopes.Coherent) (hw : scopes.Reached w) (list : List Scope)
    (isThere : ∀ scope ∈ list, scope ∈ scopes) :
    ∃ pieces, Consists scopes list (scopes.buildAll list isThere w).1 pieces ∧ ∀ piece ∈ pieces, piece.Own := by
  induction list generalizing w with
  | nil =>
    refine ⟨[], ⟨List.forall_mem_nil _, fun way head => ?_, List.forall_mem_nil _⟩, List.forall_mem_nil _⟩
    simp [buildAll, Entry.not_at_empty, Rooted, not_finds_nil]
  | cons scope rest ih =>
    have hs := isThere scope List.mem_cons_self
    obtain ⟨pieces, hfirst, hown⟩ := build_consists hc hs hw
    have hw₁ : scopes.Reached (scopes.build scope hs w).2 :=
      (hw.addDocuments _ _ _).settleAll hs _ _ fun _ hl => hl
    obtain ⟨more, hrest, hown'⟩ := ih hw₁ fun s h => isThere s (List.mem_cons_of_mem _ h)
    exact ⟨pieces ++ more, hfirst.append hrest, List.forall_mem_append.2 ⟨hown, hown'⟩⟩

section

variable {graft : Graft} {forest forest' : Forest} {decided : List (Graft × Verdict)} {list : List Scope}
  {pieces : List Piece}

theorem ownerOf_of_mem_grafts (hc : scopes.Coherent) (h : graft ∈ scopes.grafts) :
    ∃ scope ∈ scopes, graft.context ∈ scope.contexts ∧ graft.augment ∈ graft.context.document.body.augments
      ∧ scopes.ownerOf graft = scope.main.asOwner := by
  obtain ⟨scope, hs, h⟩ := List.mem_flatMap.1 h
  obtain ⟨context, hcontext, h⟩ := List.mem_flatMap.1 h
  obtain ⟨augment, haugment, rfl⟩ := List.mem_map.1 h
  refine ⟨scope, hs, hcontext, haugment, ?_⟩
  unfold ownerOf
  rw [hc.owner scope hs context hcontext, scope?_eq_some_of_mem hc.distinct hs]
  rfl

theorem Decides.reached {verdict : Verdict} (h : Decides scopes graft forest w verdict forest' w')
    (hw : scopes.Reached w) : scopes.Reached w' := by
  cases h with
  | grafted _ hadds => exact (adds_of_addNodes hadds).reached (hw.note _)
  | refused h => exact hw.report _ _
  | missing h => exact hw.report _ _

theorem Consists.grafted (hc : scopes.Coherent) (hw : scopes.Reached w) (h : Consists scopes list forest pieces)
    (hgraft : graft ∈ scopes.grafts) {entry : Entry} {children : List Entry} {target : Target}
    (htarget : scopes.target forest graft = .ok (some (entry, target)))
    (hadds : Adds scopes (scopes.ownerOf graft) [] (spotOf forest target) graft.context graft.augment.nodes
      entry.children (w.note (.augmenting graft.augment.target graft.context.document.name)) children w') :
    ∃ piece : Piece,
      Consists scopes list (Entry.regrowIn children target.module target.names forest) (pieces ++ [piece])
        ∧ piece.Grafted graft target := by
  obtain ⟨scope, hs, hcontext, haugment, howner⟩ := ownerOf_of_mem_grafts hc hgraft
  obtain ⟨tree, htree, hd⟩ := (target_eq_some_iff.1 htarget).path
  have hentry := (h.distinct tree (Entry.named?_spec htree).1).descend hd
  rw [howner] at hadds
  obtain ⟨grown, heq, hgrown, hkept, hdistinct⟩ := hadds.bears hc (hw.note _)
  rw [heq] at hkept ⊢
  refine ⟨⟨scope, graft.context, graft.augment.nodes, target.module :: target.names, grown⟩, ⟨?_, ?_, ?_⟩,
    ⟨rfl, haugment, rfl, rfl⟩⟩
  · rw [List.forall_mem_append, List.forall_mem_singleton]
    exact ⟨h.sound, ⟨hs, hcontext, hgrown⟩⟩
  · intro way head
    rw [Entry.at_regrowIn htree hd, h.ways, finds_append, finds_singleton, or_assoc]
    rfl
  · apply Entry.forall_all_regrowIn h.distinct htree hd
    · unfold Entry.Distinct
      rw [← Entry.names_eq]
      apply hkept
      rw [Entry.names_eq]
      exact hentry.self
    · rw [List.forall_mem_append]
      exact ⟨fun c hchild => hentry.child hchild, hdistinct⟩

theorem Consists.decides (hc : scopes.Coherent) (hw : scopes.Reached w) (h : Consists scopes list forest pieces)
    (hall : DecidesAll scopes forest w decided forest' w') (hgrafts : ∀ p ∈ decided, p.1 ∈ scopes.grafts) :
    ∃ more, Consists scopes list forest' (pieces ++ more)
      ∧ ∀ piece ∈ more, ∃ graft target, (graft, .grafted target) ∈ decided ∧ piece.Grafted graft target := by
  induction hall generalizing pieces with
  | nil =>
    refine ⟨[], ?_, List.forall_mem_nil _⟩
    rw [List.append_nil]
    exact h
  | @cons forest forest' forest'' w w' w'' graft verdict rest hstep _ ih =>
    rw [List.forall_mem_cons] at hgrafts
    have hw' := hstep.reached hw
    have hlater : ∀ {more : List Piece},
        (∀ piece ∈ more, ∃ graft target, (graft, .grafted target) ∈ rest ∧ piece.Grafted graft target) →
        ∀ piece ∈ more, ∃ other target, (other, .grafted target) ∈ (graft, verdict) :: rest
          ∧ piece.Grafted other target := by
      intro more hmore piece hpiece
      obtain ⟨other, target, hmem, hgrafted⟩ := hmore piece hpiece
      exact ⟨other, target, List.mem_cons_of_mem _ hmem, hgrafted⟩
    cases hstep with
    | grafted htarget hadds =>
      obtain ⟨piece, hfirst, hgrafted⟩ := h.grafted hc hw hgrafts.1 htarget (adds_of_addNodes hadds)
      obtain ⟨more, hrest, hmore⟩ := ih hw' hfirst hgrafts.2
      rw [List.append_assoc] at hrest
      refine ⟨[piece] ++ more, hrest, ?_⟩
      rw [List.forall_mem_append, List.forall_mem_singleton]
      exact ⟨⟨graft, _, List.mem_cons_self, hgrafted⟩, hlater hmore⟩
    | refused _ =>
      obtain ⟨more, hrest, hmore⟩ := ih hw' h hgrafts.2
      exact ⟨more, hrest, hlater hmore⟩
    | missing _ =>
      obtain ⟨more, hrest, hmore⟩ := ih hw' h hgrafts.2
      exact ⟨more, hrest, hlater hmore⟩

theorem forest_consists (hc : scopes.Coherent) :
    ∃ pieces, Consists scopes scopes scopes.forest.1 pieces
      ∧ ∀ piece ∈ pieces, piece.Warranted scopes scopes.forest.1 := by
  have isThere : ∀ scope ∈ scopes, scope ∈ scopes := fun _ h => h
  obtain ⟨pieces, hplanted, hown⟩ := buildAll_consists hc .empty scopes isThere
  have hw : scopes.Reached (scopes.buildAll scopes isThere .empty).2 := Reached.empty.buildAll _ _
  obtain ⟨decided, hperm, hall, hfinal⟩ := scopes.decides_graftAll scopes.grafts
    (scopes.buildAll scopes isThere .empty).1 (scopes.buildAll scopes isThere .empty).2
  have hgrafts : ∀ p ∈ decided, p.1 ∈ scopes.grafts := fun p hp => hperm.mem_iff.1 (List.mem_map_of_mem hp)
  obtain ⟨more, hconsists, hmore⟩ := hplanted.decides hc hw hall hgrafts
  refine ⟨pieces ++ more, hconsists, ?_⟩
  rw [List.forall_mem_append]
  refine ⟨fun piece hpiece => .inl (hown piece hpiece), fun piece hpiece => .inr ?_⟩
  obtain ⟨graft, target, hmem, hgrafted⟩ := hmore piece hpiece
  exact ⟨graft, hgrafts _ hmem, target, (hfinal _ hmem).symm, hgrafted⟩

end

end Scopes

end Yang

import Yang.Proofs.Format.Outlined
import Yang.Proofs.ModuleSet.Named

/-!
This module contains what the outline tells about the trees of sets that come of an empty one and were processed without
a problem: everything that is written behind a description is a comment, and what is left tells where the entries are
and what their lines say of them.
-/

namespace Yang

theorem Reference.eq_of_ofText {s p : String} (h : (ofText s).prefixId = some p) : s = p ++ ":" ++ (ofText s).name := by
  unfold ofText at h ⊢
  split at h
  · next first second more heq =>
    cases h
    rw [Text.pieces_eq_splitOn] at heq
    have hjoined : [':'].intercalate (s.toList.splitOn ':') = s.toList := List.intercalate_splitOn ':'
    rw [heq, List.intercalate_cons_cons] at hjoined
    dsimp only
    rw [← String.toList_inj]
    simp only [String.toList_append, String.toList_ofList]
    exact hjoined.symm
  · cases h

namespace Scopes

variable {scopes : Scopes} {forest : Forest} {context : Context} {reference : String}

theorem Named.word_of_way (hn : scopes.Named) (hshows : scopes.Shows context) {hops : List Hop} {base : String}
    (hway : scopes.Way context reference hops base) : Outline.Word reference := by
  cases hway with
  | builtin h =>
    unfold isBuiltin at h
    rw [Bool.and_eq_true, Option.isNone_iff_eq_none, List.contains_iff_mem] at h
    rw [Reference.name_ofText h.1] at h
    have hall : ∀ name ∈ builtinTypes, Field.isIdentifier name = true := by decide
    exact Outline.word_of_isIdentifier (hall _ h.2)
  | @derived _ _ found _ _ _ hselects _ =>
    obtain ⟨scope, hs, hmodule, hname, before, after, hdefinitions, _⟩ := hselects
    have hmem : found ∈ scope.definitions Typedef := by
      rw [hdefinitions]
      exact List.mem_append_right _ List.mem_cons_self
    obtain ⟨context', hcontext', hl⟩ := List.mem_flatMap.1 hmem
    obtain ⟨definition, hdefinition, rfl⟩ := List.mem_map.1 hl
    have hword := Outline.word_of_isIdentifier
      ((hn.documents context' ⟨scope, hs, hcontext'⟩).body.typedefs definition hdefinition)
    rw [show definition.name = (Reference.ofText reference).name from hname] at hword
    cases hbound : (Reference.ofText reference).prefixId with
    | none => rwa [Reference.name_ofText hbound] at hword
    | some p =>
      rw [hbound] at hmodule
      obtain ⟨_, _, heq, _⟩ := List.lookup_eq_some_iff.1 hmodule
      have hp := hn.prefixes context hshows (p, scope.main.name)
        (by rw [heq]; exact List.mem_append_right _ List.mem_cons_self)
      rw [Reference.eq_of_ofText hbound, Outline.word_append, Outline.word_append]
      exact ⟨⟨Outline.word_of_isIdentifier hp, Outline.word_colon⟩, hword⟩

theorem Makes.word_type (hn : scopes.Named) (hshows : scopes.Shows context) {owner : Owner} {node : Node}
    {head : EntryHead} (h : scopes.Makes owner context node head) :
    ∀ type, head.type = some type → Outline.Word type.name := by
  intro type htype
  obtain ⟨writable, type', htypes, rfl⟩ := h.made
  rw [Node.type_makeHead] at htype
  subst htype
  unfold Types at htypes
  split at htypes
  · cases htypes
  · obtain ⟨hops, base, hway, hkeeps⟩ := htypes.keeps type rfl
    rw [hkeeps.name]
    exact hn.word_of_way hshows hway

theorem Owned.spelled (h : scopes.Owned forest) (hn : scopes.Named)
    (hheads : forest.map Entry.head = scopes.map (fun s => s.main.head))
    (hthriving : ∀ tree ∈ forest, Thriving tree) : ∀ tree ∈ forest, tree.Spelled := by
  intro tree htree d hd
  have haccepted := (hthriving tree htree).entries d hd
  have hkeys : d.head.kind = .list → ∀ key ∈ d.head.keys, Field.isIdentifier key = true := by
    intro hlist key hkey
    obtain ⟨c, hc, rfl, _⟩ := haccepted.keys hlist key hkey
    obtain ⟨e, he, rfl⟩ := List.mem_map.1 hc
    exact (h.named hn tree htree d hd e he).name
  rcases hd.eq_or_child with rfl | ⟨e, he, hchild⟩
  · have hhead : d.head ∈ forest.map Entry.head := List.mem_map_of_mem htree
    rw [hheads] at hhead
    obtain ⟨scope, hs, hscope⟩ := List.mem_map.1 hhead
    have hname : Field.isIdentifier d.head.name = true := by
      rw [← hscope]
      exact (hn.mains scope hs).name
    have hkind : d.head.kind = .module := (hthriving d htree).kind
    have htype : d.head.type = none := by
      rw [← hscope]
      rfl
    refine ⟨hname, fun hne => absurd hkind hne, fun _ => ?_, haccepted.typed, ?_, hkeys, haccepted.leaf⟩
    · rw [← hscope]
      rfl
    · rw [htype]
      nofun
  · have hnamed := h.named hn tree htree e he d hchild
    obtain ⟨_, _, context, node, _, hshows, _, hmakes⟩ := h.origins tree htree e he d hchild
    exact ⟨hnamed.name, fun _ => hnamed.prefixId, fun hkind => absurd hkind hnamed.kind, haccepted.typed,
      hmakes.word_type hn hshows, hkeys, haccepted.leaf⟩

end Scopes

namespace ModuleSet

/--
Whether a tree is, but for its descriptions, that of a module in a set that comes of an empty one and was processed
without a problem.
-/
def Issues (tree : Entry) : Prop :=
  ∃ set files, Begun set ∧ (set.process files).1 = .ok []
    ∧ ∃ name original, (set.process files).2.toEntry name = .ok original ∧ tree.undescribed = original.undescribed

theorem Issues.exists_original {tree : Entry} (h : Issues tree) :
    ∃ scopes : Scopes, scopes.Coherent ∧ scopes.Named ∧ scopes.forest.2.problems = []
      ∧ ∃ original ∈ scopes.forest.1, tree.undescribed = original.undescribed := by
  obtain ⟨set, files, hbegun, hok, name, original, hentry, hsame⟩ := h
  obtain ⟨forest, houtcome⟩ := outcome_of_process_eq_ok hok
  obtain ⟨store, files', hopen, hprocess⟩ := (hbegun.after files .process).exists_process houtcome
  rw [process_open] at hprocess
  split at hprocess
  · cases hprocess
  · simp only [Option.some.injEq, Outcome.mk.injEq, List.append_eq_nil_iff] at hprocess
    refine ⟨(gather store files').1, (sound_gather store files').coherent, named_gather hopen.named files',
      hprocess.1.2, original, ?_, hsame⟩
    rw [hprocess.2]
    unfold toEntry at hentry
    rw [houtcome] at hentry
    dsimp only at hentry
    split at hentry
    · next hnamed =>
      cases hentry
      exact (Entry.named?_spec hnamed).1
    · cases hentry

theorem Issues.spelled {tree : Entry} (h : Issues tree) : tree.Spelled := by
  obtain ⟨scopes, hc, hn, hnil, original, hmem, hsame⟩ := h.exists_original
  have hthriving := (Scopes.flourishes_forest hc hnil).thriving
  have hspelled := (Scopes.owned_forest hc).spelled hn scopes.heads_forest hthriving original hmem
  rwa [← Entry.spelled_undescribed_iff, hsame, Entry.spelled_undescribed_iff]

theorem Issues.children {tree c : Entry} (h : Issues tree) (hc : c ∈ tree.children) :
    c.head.prefixId = tree.head.prefixId ∧ c.head.kind ≠ .module := by
  obtain ⟨scopes, hcoherent, hn, _, original, hmem, hsame⟩ := h.exists_original
  have howned := Scopes.owned_forest hcoherent
  have hchildren := congrArg Entry.children hsame
  have hhead := congrArg Entry.head hsame
  rw [Entry.children_undescribed, Entry.children_undescribed] at hchildren
  rw [Entry.head_undescribed, Entry.head_undescribed] at hhead
  have hbelow := List.mem_map_of_mem hc (f := Entry.undescribed)
  rw [hchildren] at hbelow
  obtain ⟨b, hb, hchild⟩ := List.mem_map.1 hbelow
  have hheads := congrArg Entry.head hchild
  rw [Entry.head_undescribed, Entry.head_undescribed] at hheads
  have hbound : b.head.prefixId = c.head.prefixId := (congrArg EntryHead.prefixId hheads :)
  have hroot : tree.head.prefixId = original.head.prefixId := (congrArg EntryHead.prefixId hhead :)
  have hkind : b.head.kind = c.head.kind := (congrArg EntryHead.kind hheads :)
  rw [← hbound, ← hkind, hroot]
  exact ⟨(howned.roots original hmem b hb).1, (howned.named hn original hmem original (.self _) b hb).kind⟩

theorem Issues.of_mem_inOrder {tree c : Entry} (h : Issues tree) (hc : c ∈ tree.inOrder.children) :
    c.head.sign.prefixId = tree.head.prefixId := by
  rw [Entry.inOrder_eq] at hc
  obtain ⟨b, hb, rfl⟩ := Entry.mem_inOrderAll.1 (List.mem_mergeSort.1 hc)
  obtain ⟨hbound, hkind⟩ := h.children hb
  rw [Entry.head_inOrder, ← hbound]
  exact if_neg hkind

theorem Issues.prefixId_eq {tree tree' : Entry} (h : Issues tree) (h' : Issues tree')
    (hagrees : tree.inOrder.Agrees tree'.inOrder) (hne : tree.children ≠ []) :
    tree.head.prefixId = tree'.head.prefixId := by
  obtain ⟨d, more, hmore⟩ := List.exists_cons_of_ne_nil hne
  have hd : d.inOrder ∈ tree.inOrder.children := by
    rw [Entry.inOrder_eq]
    refine List.mem_mergeSort.2 (Entry.mem_inOrderAll.2 ⟨d, ?_, rfl⟩)
    rw [hmore]
    exact List.mem_cons_self
  have hbelow : ∀ c ∈ tree.inOrder.children, c.head.sign.prefixId = tree.head.prefixId := fun _ hc => h.of_mem_inOrder hc
  have hbelow' : ∀ c ∈ tree'.inOrder.children, c.head.sign.prefixId = tree'.head.prefixId :=
    fun _ hc => h'.of_mem_inOrder hc
  have hchildren := hagrees.children
  generalize tree.inOrder.children = children at hd hbelow hchildren
  generalize tree'.inOrder.children = children' at hbelow' hchildren
  cases hchildren with
  | nil => cases hd
  | cons hfirst _ =>
    rw [← hbelow _ List.mem_cons_self, ← hbelow' _ List.mem_cons_self, hfirst.sign]

/--
Without empty lines and comments, the outline of trees that come of processing without a problem is that of the same
trees without descriptions, whatever these say, and wherever text is cut into lines: at line feeds only, or at all line
ends. From what is left the trees are known, but for the order of children: where entries are and the sign of each of
them. The line of a root tells only its name, but as soon as there is an entry below it, its prefix is known as well.
-/
theorem agrees_of_outline {entries entries' : List Entry} (h : ∀ e ∈ entries, Issues e)
    (h' : ∀ e ∈ entries', Issues e) {cut : String → List String} (hcut : cut = Text.lines ∨ cut = Text.splitAt '\n') :
    Outline.bare cut (Outline.text entries) = Outline.text (entries.map Entry.undescribed)
      ∧ (Outline.bare cut (Outline.text entries) = Outline.bare cut (Outline.text entries') →
        List.Forall₂ (fun e e' => e.inOrder.Agrees e'.inOrder
          ∧ (e.children ≠ [] → e.head.prefixId = e'.head.prefixId)) entries entries') := by
  have hspelled : ∀ e ∈ entries, e.Spelled := fun e he => (h e he).spelled
  have hspelled' : ∀ e ∈ entries', e.Spelled := fun e he => (h' e he).spelled
  rw [Outline.bare_text hspelled hcut, Outline.bare_text hspelled' hcut]
  refine ⟨rfl, fun heq => ?_⟩
  have hagrees := Outline.agrees_of_text_eq hspelled hspelled' heq
  clear heq hspelled hspelled'
  induction hagrees with
  | nil => exact .nil
  | cons hfirst _ ih =>
    rw [List.forall_mem_cons] at h h'
    exact .cons ⟨hfirst, h.1.prefixId_eq h'.1 hfirst⟩ (ih h.2 h'.2)

def chestTree (description inner : Option String) : Entry :=
  .mk { EntryHead.plain "m" .module "p" "u" with description := description }
    [.mk (EntryHead.plain "c" .container "p" "u")
      [.mk { EntryHead.plain "a" .leaf "p" "u" with
        description := inner, type := some ⟨"string", "string", [], [], none, none⟩ } []]]

theorem issues_chestTree (description inner : Option String) : Issues (chestTree description inner) := by
  refine ⟨chest, .empty, begun_chest, process_chest _, "m", chestTree none none, ?_, rfl⟩
  unfold chest
  rw [show plain _ _ = ⟨(plain _ _).store, none⟩ from rfl, process_open, gather_plain]
  cbv

def forgedTree : Entry :=
  chestTree (some "\x7d\nmodule n \x7b") (some "rw: p:b")

theorem agrees_of_outline_sample : (∀ e ∈ [forgedTree], Issues e) ∧ (∀ e ∈ [chestTree none none], Issues e)
    ∧ Outline.bare Text.lines (Outline.text [forgedTree]) = Outline.text ([forgedTree].map Entry.undescribed)
    ∧ Outline.bare Text.lines (Outline.text [forgedTree]) = Outline.bare Text.lines (Outline.text [chestTree none none])
    ∧ List.Forall₂ (fun e e' => e.inOrder.Agrees e'.inOrder
      ∧ (e.children ≠ [] → e.head.prefixId = e'.head.prefixId)) [forgedTree] [chestTree none none] :=
  have h : ∀ e ∈ [forgedTree], Issues e := List.forall_mem_singleton.2 (issues_chestTree _ _)
  have h' : ∀ e ∈ [chestTree none none], Issues e := List.forall_mem_singleton.2 (issues_chestTree _ _)
  have hforged := agrees_of_outline h h' (.inl rfl)
  have hbare := hforged.1.trans (agrees_of_outline h' h (.inl rfl)).1.symm
  ⟨h, h', hforged.1, hbare, hforged.2 hbare⟩

end ModuleSet

end Yang

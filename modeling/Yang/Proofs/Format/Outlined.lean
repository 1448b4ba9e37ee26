import Mathlib.Data.List.Forall2
import Yang.Proofs.Format.Order
import Yang.Proofs.Format.Row

/-!
This module contains what the outline tells about trees. Descriptions stand in lines of their own, which are known from
how they start, so none of them can be taken for an entry. And the other lines tell where the entries are and the sign
of each of them.
-/

namespace Yang

def EntryHead.undescribed (head : EntryHead) : EntryHead :=
  { head with description := none }

namespace Entry

mutual

def undescribed (e : Entry) : Entry :=
  match e with
  | mk head children => mk head.undescribed (undescribedAll children)

def undescribedAll (entries : List Entry) : List Entry :=
  match entries with
  | [] => []
  | e :: rest => undescribed e :: undescribedAll rest

end

/--
Whether trees have entries in the same places that have the same signs.
-/
inductive Agrees : Entry → Entry → Prop
  | mk {head head' : EntryHead} {children children' : List Entry} (hsign : head.sign = head'.sign)
    (hchildren : List.Forall₂ Agrees children children') : Agrees (.mk head children) (.mk head' children')

theorem Agrees.sign {e e' : Entry} (h : e.Agrees e') : e.head.sign = e'.head.sign := by
  cases h with
  | mk hsign _ => exact hsign

theorem Agrees.children {e e' : Entry} (h : e.Agrees e') : List.Forall₂ Agrees e.children e'.children := by
  cases h with
  | mk _ hchildren => exact hchildren

theorem undescribedAll_eq (entries : List Entry) : undescribedAll entries = entries.map undescribed := by
  induction entries with
  | nil => rfl
  | cons e rest ih => rw [undescribedAll, ih, List.map_cons]

theorem undescribed_eq (e : Entry) : e.undescribed = mk e.head.undescribed (e.children.map undescribed) := by
  obtain ⟨head, children⟩ := e
  rw [undescribed, undescribedAll_eq]
  rfl

theorem head_undescribed (e : Entry) : e.undescribed.head = e.head.undescribed := by
  rw [undescribed_eq]
  rfl

theorem children_undescribed (e : Entry) : e.undescribed.children = e.children.map undescribed := by
  rw [undescribed_eq]
  rfl

theorem name_undescribed (e : Entry) : e.undescribed.name = e.name := by
  unfold name
  rw [head_undescribed]
  rfl

mutual

theorem inOrder_undescribed (e : Entry) : e.undescribed.inOrder = e.inOrder.undescribed := by
  obtain ⟨head, children⟩ := e
  rw [undescribed, inOrder, inOrder, undescribed, inOrderAll_undescribed children, undescribedAll_eq,
    List.map_mergeSort]
  intro a _ b _
  rw [name_undescribed, name_undescribed]

theorem inOrderAll_undescribed (entries : List Entry) :
    inOrderAll (undescribedAll entries) = (inOrderAll entries).map undescribed := by
  match entries with
  | [] => rfl
  | e :: rest =>
    rw [undescribedAll, inOrderAll, inOrderAll, List.map_cons, inOrder_undescribed e, inOrderAll_undescribed rest]

end

theorem Within.undescribed {d e : Entry} (h : Within d e) : Within d.undescribed e.undescribed := by
  induction h with
  | self => exact .self _
  | child hc _ ih =>
    refine .child ?_ ih
    rw [children_undescribed]
    exact List.mem_map_of_mem hc

def Spelled (e : Entry) : Prop :=
  e.All EntryHead.Spelled

theorem spelled_of_same {head head' : EntryHead} {children children' : List EntryHead}
    (h : head.Spelled children) (hhead : head'.undescribed = head.undescribed) (hnil : children = [] → children' = []) :
    head'.Spelled children' := by
  unfold EntryHead.undescribed at hhead
  rw [EntryHead.mk.injEq] at hhead
  obtain ⟨hname, hkind, hbound, _, _, hconfig, htype, hkeys, _⟩ := hhead
  constructor
  · rw [hname]
    exact h.name
  · rw [hkind, hbound]
    exact h.prefixId
  · rw [hkind, hconfig]
    exact h.access
  · rw [hkind, htype]
    exact h.typed
  · rw [htype]
    exact h.type
  · rw [hkind, hkeys]
    exact h.keys
  · rw [hkind]
    exact fun hleaf => hnil (h.leaf hleaf)

theorem Spelled.inOrder {e : Entry} (h : e.Spelled) : e.inOrder.Spelled := by
  intro d hd
  obtain ⟨c, hc, rfl⟩ := within_inOrder hd
  refine spelled_of_same (h c hc) (congrArg EntryHead.undescribed (head_inOrder c)) fun hnil => ?_
  rw [List.map_eq_nil_iff] at hnil
  rw [inOrder_eq, hnil, inOrderAll, List.mergeSort_nil]
  rfl

theorem all_undescribed_iff {p : EntryHead → List EntryHead → Prop}
    (hp : ∀ head children, p head.undescribed (children.map EntryHead.undescribed) ↔ p head children) {e : Entry} :
    e.undescribed.All p ↔ e.All p := by
  have hsame : ∀ c : Entry, p c.undescribed.head (c.undescribed.children.map head) ↔ p c.head (c.children.map head) := by
    intro c
    rw [head_undescribed, children_undescribed, List.map_map, ← hp c.head, List.map_map]
    have hheads : head ∘ undescribed = EntryHead.undescribed ∘ head := funext head_undescribed
    rw [hheads]
  constructor
  · exact fun h d hd => (hsame d).1 (h _ hd.undescribed)
  · intro h d hd
    obtain ⟨c, hc, rfl⟩ := hd.of_children (f := Entry.undescribed) fun e c hc => by
      rw [children_undescribed] at hc
      exact List.mem_map.1 hc
    exact (hsame c).2 (h c hc)

theorem spelled_undescribed_iff {e : Entry} : e.undescribed.Spelled ↔ e.Spelled := by
  apply all_undescribed_iff
  intro head children
  constructor
  · exact fun h => spelled_of_same h rfl List.map_eq_nil_iff.1
  · exact fun h => spelled_of_same h rfl List.map_eq_nil_iff.2

end Entry

namespace Outline

def isRemark (line : String) : Bool :=
  line == "" || ['/', '/'].isPrefixOf (line.toList.dropWhile Text.isBlank)

/--
A text without the lines that are empty or comments, when it is cut into lines in some way.
-/
def bare (cut : String → List String) (text : String) : String :=
  Text.written ((cut text).filter (fun line => !isRemark line))

def text (entries : List Entry) : String :=
  String.join (outlineLines entries)

inductive Remarks : List String → List String → Prop
  | nil : Remarks [] []
  | remark {body : String} {lines others : List String} (hsingle : Text.Single body) (hremark : isRemark body = true)
    (h : Remarks lines others) : Remarks ((body ++ "\n") :: lines) others
  | line {body : String} {lines others : List String} (hsingle : Text.Single body) (hremark : isRemark body = false)
    (h : Remarks lines others) : Remarks ((body ++ "\n") :: lines) ((body ++ "\n") :: others)

variable {all all' others others' : List String}

theorem Remarks.append (h : Remarks all others) (h' : Remarks all' others') :
    Remarks (all ++ all') (others ++ others') := by
  induction h with
  | nil => exact h'
  | remark hsingle hremark _ ih => exact .remark hsingle hremark ih
  | line hsingle hremark _ ih => exact .line hsingle hremark ih

theorem Remarks.exists_bodies (h : Remarks all others) :
    ∃ bodies, (∀ body ∈ bodies, Text.Single body) ∧ String.join all = Text.written bodies
      ∧ others = (bodies.filter (fun line => !isRemark line)).map (fun line => line ++ "\n") := by
  suffices ∃ bodies : List String, (∀ body ∈ bodies, Text.Single body) ∧ all = bodies.map (fun line => line ++ "\n")
      ∧ others = (bodies.filter (fun line => !isRemark line)).map (fun line => line ++ "\n") by
    obtain ⟨bodies, hsingle, rfl, hothers⟩ := this
    exact ⟨bodies, hsingle, rfl, hothers⟩
  induction h with
  | nil => exact ⟨[], List.forall_mem_nil _, rfl, rfl⟩
  | @remark body _ _ hsingle hremark _ ih =>
    obtain ⟨bodies, hbodies, rfl, rfl⟩ := ih
    refine ⟨body :: bodies, List.forall_mem_cons.2 ⟨hsingle, hbodies⟩, rfl, ?_⟩
    rw [List.filter_cons_of_neg (by simpa using hremark)]
  | @line body _ _ hsingle hremark _ ih =>
    obtain ⟨bodies, hbodies, rfl, rfl⟩ := ih
    refine ⟨body :: bodies, List.forall_mem_cons.2 ⟨hsingle, hbodies⟩, rfl, ?_⟩
    rw [List.filter_cons_of_pos (by simpa using hremark), List.map_cons]

theorem Remarks.filter_cut (h : Remarks all others) {cut : String → List String}
    (hcut : cut = Text.lines ∨ cut = Text.splitAt '\n') :
    ((cut (String.join all)).filter (fun line => !isRemark line)).map (fun line => line ++ "\n") = others := by
  obtain ⟨bodies, hsingle, hjoin, rfl⟩ := h.exists_bodies
  rw [hjoin]
  rcases hcut with rfl | rfl
  · rw [Text.lines_written hsingle]
  · rw [Text.splitAt_written fun body hbody => Text.not_mem_of_single (hsingle body hbody), List.filter_append,
      List.filter_cons_of_neg (by decide), List.filter_nil, List.append_nil]

theorem Remarks.bare_join (h : Remarks all others) {cut : String → List String}
    (hcut : cut = Text.lines ∨ cut = Text.splitAt '\n') : bare cut (String.join all) = String.join others := by
  unfold bare Text.written
  rw [h.filter_cut hcut]

theorem Remarks.eq_of_join_eq (h : Remarks all others) (h' : Remarks all' others')
    (heq : String.join others = String.join others') : others = others' := by
  obtain ⟨bodies, hsingle, _, rfl⟩ := h.exists_bodies
  obtain ⟨bodies', hsingle', _, rfl⟩ := h'.exists_bodies
  rw [Text.written_inj _ _ heq]
  · exact fun line hline => hsingle line (List.mem_of_mem_filter hline)
  · exact fun line hline => hsingle' line (List.mem_of_mem_filter hline)

theorem blank_of_mem_repeated {n : Nat} : ∀ c ∈ (Text.repeated n "  ").toList, c = ' ' := by
  unfold Text.repeated
  rw [String.toList_join]
  intro c hc
  obtain ⟨part, hpart, hc⟩ := List.mem_flatMap.1 hc
  rw [List.eq_of_mem_replicate hpart] at hc
  simpa using hc

theorem single_indented (depth : Int) {s : String} (h : Text.Single s) :
    Text.Single (Text.repeated depth.toNat "  " ++ s) := by
  rw [Text.single_append]
  refine ⟨fun c hc => ?_, h⟩
  rw [blank_of_mem_repeated c hc]
  decide

theorem dropWhile_indented (depth : Int) {s : String} {c : Char} {rest : List Char} (h : s.toList = c :: rest)
    (hc : Text.isBlank c = false) :
    (Text.repeated depth.toNat "  " ++ s).toList.dropWhile Text.isBlank = c :: rest := by
  rw [String.toList_append, List.dropWhile_append_of_pos, h, List.dropWhile_cons_of_neg (by rw [hc]; decide)]
  intro c hc
  rw [blank_of_mem_repeated c hc]
  decide

theorem isRemark_indented (depth : Int) {s : String} {c : Char} {rest : List Char} (h : s.toList = c :: rest)
    (hc : Text.isBlank c = false) (hslash : c ≠ '/') :
    isRemark (Text.repeated depth.toNat "  " ++ s) = false := by
  unfold isRemark
  rw [dropWhile_indented depth h hc, Bool.or_eq_false_iff]
  constructor
  · rw [beq_eq_false_iff_ne]
    intro heq
    have hnil := congrArg String.toList heq
    rw [String.toList_append, h] at hnil
    exact absurd hnil (List.append_ne_nil_of_right_ne_nil _ (List.cons_ne_nil _ _))
  · rw [List.isPrefixOf, beq_false_of_ne (Ne.symm hslash), Bool.false_and]

theorem remarks_comment (depth : Int) (description : Option String) : Remarks (comment depth description) [] := by
  unfold comment
  split
  · exact .nil
  · next s =>
    split
    · exact .nil
    · have hempty : Text.Single "" := List.forall_mem_nil _
      refine .remark hempty (by decide) ?_
      have hsingle : ∀ l ∈ Text.lines (Text.strip s), Text.Single l := fun l hl => Text.single_of_mem_lines hl
      generalize Text.lines (Text.strip s) = remarks at hsingle
      induction remarks with
      | nil => exact .nil
      | cons l rest ih =>
        rw [List.forall_mem_cons] at hsingle
        refine .remark (single_indented depth ?_) ?_ (ih hsingle.2)
        · rw [Text.single_append]
          exact ⟨Text.single_of_all (by decide), hsingle.1⟩
        · unfold isRemark
          have hslashes : ("// " ++ l).toList = '/' :: '/' :: ' ' :: l.toList := by
            rw [String.toList_append]
            rfl
          rw [dropWhile_indented depth hslashes (by decide), Bool.or_eq_true]
          exact .inr rfl

theorem lines_mk (depth : Int) (head : EntryHead) (children : List Entry) : lines depth (.mk head children)
    = comment depth head.description ++ line depth (row head) ::
      if head.kind.isLeaf then [] else linesOfAll (depth + 1) children ++ [line depth "\x7d"] := by
  rw [lines]
  unfold row
  cases head.kind.isLeaf with
  | true => rw [if_pos rfl, if_pos rfl, if_pos rfl, String.append_empty]
  | false => rfl

theorem lines_undescribed (depth : Int) (head : EntryHead) (children : List Entry) :
    lines depth (Entry.mk head children).undescribed = line depth (row head) ::
      if head.kind.isLeaf then [] else linesOfAll (depth + 1) (Entry.undescribedAll children) ++ [line depth "\x7d"] := by
  rw [Entry.undescribed, lines_mk]
  rfl

theorem remarks_row (depth : Int) {head : EntryHead} {children : List EntryHead} (h : head.Spelled children)
    (hrest : Remarks all others) : Remarks (line depth (row head) :: all) (line depth (row head) :: others) := by
  obtain ⟨c, rest, hrow, hc⟩ := exists_toList_row head
  refine .line (single_indented depth (single_row h)) (isRemark_indented depth hrow ?_ ?_) hrest <;>
    rcases hc with rfl | rfl | rfl <;> decide

theorem remarks_closing (depth : Int) : Remarks [line depth "\x7d"] [line depth "\x7d"] := by
  have hsingle : Text.Single "\x7d" := Text.single_of_all (by decide)
  exact .line (single_indented depth hsingle) (isRemark_indented depth rfl (by decide) (by decide)) .nil

mutual

theorem remarks_lines (depth : Int) (e : Entry) (h : e.Spelled) :
    Remarks (lines depth e) (lines depth e.undescribed) := by
  obtain ⟨head, children⟩ := e
  obtain ⟨hhead, hchildren⟩ := Entry.all_mk_iff.1 h
  rw [lines_undescribed, lines_mk, ← List.nil_append (line depth (row head) :: _)]
  refine (remarks_comment depth head.description).append (remarks_row depth hhead ?_)
  split
  · exact .nil
  · exact (remarks_linesOfAll (depth + 1) children hchildren).append (remarks_closing depth)

theorem remarks_linesOfAll (depth : Int) (entries : List Entry) (h : ∀ e ∈ entries, e.Spelled) :
    Remarks (linesOfAll depth entries) (linesOfAll depth (Entry.undescribedAll entries)) := by
  match entries with
  | [] => exact .nil
  | e :: rest =>
    rw [List.forall_mem_cons] at h
    rw [Entry.undescribedAll, linesOfAll, linesOfAll]
    exact (remarks_lines depth e h.1).append (remarks_linesOfAll depth rest h.2)

end

theorem line_inj {depth : Int} {s s' : String} (h : line depth s = line depth s') : s = s' := by
  unfold line at h
  rw [← String.toList_inj] at h ⊢
  simp only [String.toList_append, List.append_assoc] at h
  exact List.append_cancel_right (List.append_cancel_left h)

theorem row_ne_closing (depth depth' : Int) (head : EntryHead) : line depth (row head) ≠ line depth' "\x7d" := by
  obtain ⟨c, rest, hrow, hc⟩ := exists_toList_row head
  have hblank : Text.isBlank c = false := by rcases hc with rfl | rfl | rfl <;> decide
  intro heq
  unfold line at heq
  rw [String.append_assoc, String.append_assoc] at heq
  have hfirst := congrArg (fun s => s.toList.dropWhile Text.isBlank) heq
  rw [dropWhile_indented depth (by rw [String.toList_append, hrow]; rfl) hblank,
    dropWhile_indented depth' (by rw [String.toList_append]; rfl) (by decide)] at hfirst
  rcases hc with rfl | rfl | rfl <;> cases hfirst

mutual

theorem lines_append_inj (depth : Int) (e e' : Entry) (h : e.Spelled) (h' : e'.Spelled) {rest rest' : List String}
    (heq : lines depth e.undescribed ++ rest = lines depth e'.undescribed ++ rest') :
    e.Agrees e' ∧ rest = rest' := by
  obtain ⟨head, children⟩ := e
  obtain ⟨head', children'⟩ := e'
  obtain ⟨hhead, hchildren⟩ := Entry.all_mk_iff.1 h
  obtain ⟨hhead', hchildren'⟩ := Entry.all_mk_iff.1 h'
  rw [lines_undescribed, lines_undescribed, List.cons_append, List.cons_append, List.cons.injEq] at heq
  obtain ⟨hrow, hmore⟩ := heq
  have hsign := sign_eq_of_row_eq hhead hhead' (line_inj hrow)
  have hkind : head.kind = head'.kind := congrArg Sign.kind hsign
  rw [← hkind] at hmore
  cases hleaf : head.kind.isLeaf with
  | true =>
    rw [hleaf, if_pos rfl, if_pos rfl] at hmore
    have hnil := hhead.leaf hleaf
    have hnil' := hhead'.leaf (hkind ▸ hleaf)
    rw [List.map_eq_nil_iff] at hnil hnil'
    rw [hnil, hnil']
    exact ⟨.mk hsign .nil, hmore⟩
  | false =>
    rw [hleaf, if_neg Bool.false_ne_true, if_neg Bool.false_ne_true, List.append_assoc, List.append_assoc] at hmore
    obtain ⟨hagrees, hrest⟩ := linesOfAll_append_inj depth children children' hchildren hchildren' hmore
    exact ⟨.mk hsign hagrees, hrest⟩

theorem linesOfAll_append_inj (depth : Int) (entries entries' : List Entry) (h : ∀ e ∈ entries, e.Spelled)
    (h' : ∀ e ∈ entries', e.Spelled) {rest rest' : List String}
    (heq : linesOfAll (depth + 1) (Entry.undescribedAll entries) ++ line depth "\x7d" :: rest
      = linesOfAll (depth + 1) (Entry.undescribedAll entries') ++ line depth "\x7d" :: rest') :
    List.Forall₂ Entry.Agrees entries entries' ∧ rest = rest' := by
  match entries, entries' with
  | [], [] =>
    rw [List.append_cancel_left_eq, List.cons.injEq] at heq
    exact ⟨.nil, heq.2⟩
  | [], .mk head children :: others =>
    rw [Entry.undescribedAll, Entry.undescribedAll, linesOfAll, linesOfAll, lines_undescribed] at heq
    exact absurd (List.cons.inj heq).1.symm (row_ne_closing _ _ head)
  | .mk head children :: others, [] =>
    rw [Entry.undescribedAll, Entry.undescribedAll, linesOfAll, linesOfAll, lines_undescribed] at heq
    exact absurd (List.cons.inj heq).1 (row_ne_closing _ _ head)
  | e :: others, e' :: others' =>
    rw [List.forall_mem_cons] at h h'
    rw [Entry.undescribedAll, Entry.undescribedAll, linesOfAll, linesOfAll, List.append_assoc, List.append_assoc] at heq
    obtain ⟨hagrees, hmore⟩ := lines_append_inj (depth + 1) e e' h.1 h'.1 heq
    obtain ⟨hall, hrest⟩ := linesOfAll_append_inj depth others others' h.2 h'.2 hmore
    exact ⟨.cons hagrees hall, hrest⟩

end

theorem forall₂_of_lines_eq {entries entries' : List Entry} (h : ∀ e ∈ entries, e.Spelled)
    (h' : ∀ e ∈ entries', e.Spelled)
    (heq : entries.flatMap (fun e => lines 0 e.undescribed)
      = entries'.flatMap (fun e => lines 0 e.undescribed)) : List.Forall₂ Entry.Agrees entries entries' := by
  induction entries generalizing entries' with
  | nil =>
    cases entries' with
    | nil => exact .nil
    | cons e' rest' =>
      obtain ⟨head, children⟩ := e'
      rw [List.flatMap_cons, lines_undescribed] at heq
      cases heq
  | cons e rest ih =>
    cases entries' with
    | nil =>
      obtain ⟨head, children⟩ := e
      rw [List.flatMap_cons, lines_undescribed] at heq
      cases heq
    | cons e' rest' =>
      rw [List.forall_mem_cons] at h h'
      rw [List.flatMap_cons, List.flatMap_cons] at heq
      obtain ⟨hagrees, hrest⟩ := lines_append_inj 0 e e' h.1 h'.1 heq
      exact .cons hagrees (ih h.2 h'.2 hrest)

theorem outlineLines_undescribed (entries : List Entry) : outlineLines (entries.map Entry.undescribed)
    = (entries.map Entry.inOrder).flatMap (fun e => lines 0 e.undescribed) := by
  rw [outlineLines_eq, List.map_map, List.flatMap_map, List.flatMap_map]
  apply List.flatMap_congr
  intro e _
  rw [Function.comp_apply, Entry.inOrder_undescribed]

section

variable {entries entries' : List Entry}

theorem remarks_outlineLines (h : ∀ e ∈ entries, e.Spelled) :
    Remarks (outlineLines entries) (outlineLines (entries.map Entry.undescribed)) := by
  induction entries with
  | nil => exact .nil
  | cons e rest ih =>
    rw [List.forall_mem_cons] at h
    unfold outlineLines at ih ⊢
    rw [List.map_cons, List.flatMap_cons, List.flatMap_cons]
    refine Remarks.append ?_ (ih h.2)
    unfold Entry.outlineLines
    rw [Entry.inOrder_undescribed]
    exact remarks_lines 0 _ h.1.inOrder

theorem bare_text (h : ∀ e ∈ entries, e.Spelled) {cut : String → List String}
    (hcut : cut = Text.lines ∨ cut = Text.splitAt '\n') :
    bare cut (text entries) = text (entries.map Entry.undescribed) :=
  (remarks_outlineLines h).bare_join hcut

theorem agrees_of_text_eq (h : ∀ e ∈ entries, e.Spelled) (h' : ∀ e ∈ entries', e.Spelled)
    (heq : text (entries.map Entry.undescribed) = text (entries'.map Entry.undescribed)) :
    List.Forall₂ (fun e e' => e.inOrder.Agrees e'.inOrder) entries entries' := by
  have hlines := (remarks_outlineLines h).eq_of_join_eq (remarks_outlineLines h') heq
  rw [outlineLines_undescribed, outlineLines_undescribed] at hlines
  have hagrees := forall₂_of_lines_eq (List.forall_mem_map.2 fun e he => (h e he).inOrder)
    (List.forall_mem_map.2 fun e he => (h' e he).inOrder) hlines
  rwa [List.forall₂_map_left_iff, List.forall₂_map_right_iff] at hagrees

end

end Outline

theorem render_tree {formatter : Formatter} (h : Registry.builtin.lookup "tree" = some formatter)
    (entries : List Entry) : formatter.render entries = .ok (Outline.text entries) := by
  have hfirst : Registry.builtin.lookup "tree" = builtinFormats.head? := by rfl
  rw [hfirst] at h
  cases h
  rfl

end Yang

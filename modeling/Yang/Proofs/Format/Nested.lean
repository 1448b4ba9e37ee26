import Yang.Proofs.Entry.Walk
import Yang.Proofs.Format.Outlined

/-!
This module contains the outline read line by line: brackets open and close, and the lines between them are those of the
entries that a walk comes to, each of them inside of as many brackets as there are entries above it.
-/

namespace Yang

namespace Outline

def closes (line : String) : Bool :=
  line.toList.dropWhile Text.isBlank == ['\x7d']

def opens (line : String) : Bool :=
  line.toList.getLast? == some '\x7b'

/--
The lines that are no closing brackets, each with the number of brackets it is inside of, when there are some around all
lines. Every bracket has to have its counterpart.
-/
def nested (depth : Nat) : List String → Option (List (Nat × String))
  | [] => if depth = 0 then some [] else none
  | line :: rest =>
    if closes line then
      if depth = 0 then none else nested (depth - 1) rest
    else
      (nested (if opens line then depth + 1 else depth) rest).map ((depth, line) :: ·)

theorem nested_of_closes {line : String} (h : closes line = true) (depth : Nat) (rest : List String) :
    nested (depth + 1) (line :: rest) = nested depth rest := by
  rw [nested, if_pos h, if_neg (Nat.succ_ne_zero _), Nat.add_sub_cancel]

theorem nested_of_not_closes {line : String} (h : closes line = false) (depth : Nat) (rest : List String) :
    nested depth (line :: rest)
      = (nested (if opens line then depth + 1 else depth) rest).map ((depth, line) :: ·) := by
  rw [nested, h, if_neg Bool.false_ne_true]

theorem map_snd_nested {depth : Nat} {lines : List String} {inside : List (Nat × String)}
    (h : nested depth lines = some inside) : inside.map Prod.snd = lines.filter fun line => !closes line := by
  induction lines generalizing depth inside with
  | nil =>
    unfold nested at h
    split at h <;> cases h
    rfl
  | cons line rest ih =>
    cases hcloses : closes line with
    | true =>
      rw [List.filter_cons_of_neg (by rw [hcloses]; decide)]
      cases depth with
      | zero =>
        rw [nested, if_pos hcloses, if_pos rfl] at h
        cases h
      | succ outer => exact ih ((nested_of_closes hcloses outer rest).symm.trans h)
    | false =>
      rw [nested_of_not_closes hcloses] at h
      obtain ⟨more, hmore, rfl⟩ := Option.map_eq_some_iff.1 h
      rw [List.filter_cons_of_pos (by rw [hcloses]; rfl), List.map_cons, ih hmore]

theorem opens_of_closes {line : String} (h : closes line = true) : opens line = false := by
  unfold closes at h
  unfold opens
  rw [← List.takeWhile_append_dropWhile (p := Text.isBlank) (l := line.toList), beq_iff_eq.1 h,
    List.getLast?_append_of_ne_nil _ (List.cons_ne_nil _ _)]
  rfl

theorem countP_closes_of_nested {depth : Nat} {lines : List String} {inside : List (Nat × String)}
    (h : nested depth lines = some inside) :
    lines.countP closes = depth + lines.countP opens := by
  induction lines generalizing depth inside with
  | nil =>
    unfold nested at h
    split at h
    · next hdepth => exact hdepth.symm
    · cases h
  | cons line rest ih =>
    cases hcloses : closes line with
    | true =>
      rw [List.countP_cons_of_pos hcloses,
        List.countP_cons_of_neg (by rw [opens_of_closes hcloses]; exact Bool.false_ne_true)]
      cases depth with
      | zero =>
        rw [nested, if_pos hcloses, if_pos rfl] at h
        cases h
      | succ outer =>
        rw [ih ((nested_of_closes hcloses outer rest).symm.trans h)]
        omega
    | false =>
      rw [nested_of_not_closes hcloses] at h
      obtain ⟨more, hmore, rfl⟩ := Option.map_eq_some_iff.1 h
      rw [List.countP_cons_of_neg (by rw [hcloses]; exact Bool.false_ne_true), ih hmore, List.countP_cons]
      cases opens line with
      | true =>
        rw [if_pos rfl, if_pos rfl]
        omega
      | false => rfl

def indented (depth : Nat) (s : String) : String :=
  Text.repeated depth "  " ++ s

mutual

def rows (depth : Nat) (e : Entry) : List String :=
  match e with
  | .mk head children =>
    indented depth (row head)
      :: if head.kind.isLeaf then [] else rowsOfAll (depth + 1) children ++ [indented depth "\x7d"]

def rowsOfAll (depth : Nat) (entries : List Entry) : List String :=
  match entries with
  | [] => []
  | e :: rest => rows depth e ++ rowsOfAll depth rest

end

mutual

theorem lines_undescribed_eq (depth : Nat) (e : Entry) :
    lines depth e.undescribed = (rows depth e).map fun line => line ++ "\n" := by
  obtain ⟨head, children⟩ := e
  rw [lines_undescribed, rows, List.map_cons]
  congr 1
  split
  · rfl
  · rw [List.map_append, ← linesOfAll_undescribed_eq (depth + 1) children]
    rfl

theorem linesOfAll_undescribed_eq (depth : Nat) (entries : List Entry) :
    linesOfAll depth (Entry.undescribedAll entries) = (rowsOfAll depth entries).map fun line => line ++ "\n" := by
  match entries with
  | [] => rfl
  | e :: rest =>
    rw [Entry.undescribedAll, linesOfAll, rowsOfAll, List.map_append, lines_undescribed_eq depth e,
      linesOfAll_undescribed_eq depth rest]

end

theorem closes_row (depth : Nat) (head : EntryHead) : closes (indented depth (row head)) = false := by
  obtain ⟨c, rest, hrow, hc⟩ := exists_toList_row head
  have hblank : Text.isBlank c = false := by rcases hc with rfl | rfl | rfl <;> decide
  unfold closes indented
  rw [show Text.repeated depth "  " = Text.repeated (depth : Int).toNat "  " from rfl,
    dropWhile_indented depth hrow hblank]
  rw [beq_eq_false_iff_ne]
  rintro heq
  rw [(List.cons.inj heq).1] at hc
  revert hc
  decide

theorem closes_closing (depth : Nat) : closes (indented depth "\x7d") = true := by
  unfold closes indented
  rw [show Text.repeated depth "  " = Text.repeated (depth : Int).toNat "  " from rfl,
    @dropWhile_indented depth "\x7d" '\x7d' [] rfl (by decide)]
  rfl

theorem exists_said (head : EntryHead) : ∃ before, said head = before ++ head.name := by
  have hdecorated : ∃ before, decorated head = before ++ head.name := by
    unfold decorated EntryHead.qualifiedName
    cases head.kind with
    | module | container | leaf => exact ⟨_, rfl⟩
    | list | leafList | choice | case => exact ⟨_, String.append_assoc.symm⟩
  obtain ⟨before, hbefore⟩ := hdecorated
  unfold said
  rw [hbefore]
  cases head.type with
  | none => exact ⟨_, rfl⟩
  | some type => exact ⟨_, String.append_assoc.symm⟩

theorem opens_row (depth : Nat) {head : EntryHead} {children : List EntryHead} (h : head.Spelled children) :
    opens (indented depth (row head)) = !head.kind.isLeaf := by
  unfold opens indented
  rw [String.toList_append]
  cases hleaf : head.kind.isLeaf with
  | false =>
    unfold row
    rw [hleaf, if_neg Bool.false_ne_true, String.toList_append, ← List.append_assoc, List.getLast?_append_of_ne_nil]
    · rfl
    · exact List.cons_ne_nil _ _
  | true =>
    have hkind : head.kind ≠ .module := by
      intro hmodule
      rw [hmodule] at hleaf
      cases hleaf
    -- the last character of the line is the last one of the name
    obtain ⟨before, hsaid⟩ := exists_said head
    rw [toList_row hkind, hleaf, if_pos rfl, List.append_nil, hsaid, String.toList_append, ← List.cons_append,
      ← List.cons_append, ← List.append_assoc, ← List.append_assoc, List.getLast?_append_of_ne_nil, Bool.not_true,
      beq_eq_false_iff_ne]
    · exact fun hlast => Field.not_mem_of_isIdentifier h.name (by decide) (List.mem_of_getLast? hlast)
    · intro hnil
      exact Field.ne_empty_of_isIdentifier h.name (String.toList_eq_nil_iff.1 hnil)

def rowOf (v : Entry.Visit) : String :=
  indented v.above.length (row v.head)

mutual

theorem nested_rows (above : List EntryHead) (e : Entry) (h : e.Spelled) (rest : List String) :
    nested above.length (rows above.length e ++ rest)
      = (nested above.length rest).map
        ((e.visits above).map (fun v => (v.above.length, rowOf v)) ++ ·) := by
  obtain ⟨head, children⟩ := e
  obtain ⟨hhead, hchildren⟩ := Entry.all_mk_iff.1 h
  rw [rows, List.cons_append, nested_of_not_closes (closes_row _ _), opens_row _ hhead, Entry.visits, List.map_cons]
  cases hleaf : head.kind.isLeaf with
  | true =>
    rw [List.map_eq_nil_iff.1 (hhead.leaf hleaf), Entry.visitsAll, if_pos rfl]
    rfl
  | false =>
    have hbelow := nested_rowsOfAll (head :: above) children hchildren (indented above.length "\x7d" :: rest)
    rw [List.length_cons, nested_of_closes (closes_closing _)] at hbelow
    rw [if_neg Bool.false_ne_true, Bool.not_false, if_pos rfl, List.append_assoc, List.singleton_append, hbelow,
      Option.map_map]
    rfl

theorem nested_rowsOfAll (above : List EntryHead) (entries : List Entry) (h : ∀ e ∈ entries, e.Spelled)
    (rest : List String) :
    nested above.length (rowsOfAll above.length entries ++ rest)
      = (nested above.length rest).map
        ((Entry.visitsAll above entries).map (fun v => (v.above.length, rowOf v)) ++ ·) := by
  match entries with
  | [] => exact Option.map_id'.symm
  | e :: others =>
    rw [List.forall_mem_cons] at h
    rw [rowsOfAll, List.append_assoc, nested_rows above e h.1, nested_rowsOfAll above others h.2, Option.map_map,
      Entry.visitsAll, List.map_append]
    congr 1
    funext inside
    exact (List.append_assoc _ _ _).symm

end

theorem nested_outline {e : Entry} (h : e.Spelled) {cut : String → List String}
    (hcut : cut = Text.lines ∨ cut = Text.splitAt '\n') :
    nested 0 ((cut (e.outline 0)).filter fun line => !isRemark line)
      = some (e.walk.map fun v => (v.above.length, rowOf v)) := by
  have hlines := (remarks_lines 0 e.inOrder h.inOrder).filter_cut hcut
  change _ = lines (0 : Nat) e.inOrder.undescribed at hlines
  rw [lines_undescribed_eq] at hlines
  have hrows := List.map_injective_iff.2 (fun _ _ heq => String.append_left_inj _ |>.1 heq) hlines
  have hnested := nested_rows [] e.inOrder h.inOrder []
  rw [List.append_nil] at hnested
  unfold Entry.outline Entry.outlineLines
  rw [hrows]
  exact hnested.trans (congrArg some (List.append_nil _))

theorem opens_outline {e : Entry} (h : e.Spelled) {cut : String → List String}
    (hcut : cut = Text.lines ∨ cut = Text.splitAt '\n') :
    let lines := (cut (e.outline 0)).filter fun line => !isRemark line
    lines.filter (fun line => !closes line) = e.walk.map rowOf
      ∧ lines.filter opens = (e.walk.filter fun v => !v.head.kind.isLeaf).map rowOf
      ∧ lines.countP closes = e.walk.countP fun v => !v.head.kind.isLeaf := by
  intro lines
  have hnested := nested_outline h hcut
  change nested 0 lines = _ at hnested
  have hrows := map_snd_nested hnested
  have hcount := countP_closes_of_nested hnested
  rw [List.map_map] at hrows
  have hopens : ∀ v ∈ e.walk, opens (rowOf v) = !v.head.kind.isLeaf := by
    intro v hv
    obtain ⟨d, hd, hhead⟩ := Entry.exists_within_of_mem_visits hv
    exact opens_row _ (hhead ▸ h.inOrder d hd)
  have hfilter : lines.filter opens = (e.walk.filter fun v => !v.head.kind.isLeaf).map rowOf := by
    calc lines.filter opens = lines.filter fun line => opens line && !closes line := by
          apply List.filter_congr
          intro line _
          cases hcloses : closes line with
          | true => rw [opens_of_closes hcloses, Bool.false_and]
          | false => rw [Bool.not_false, Bool.and_true]
      _ = (lines.filter fun line => !closes line).filter opens := List.filter_filter.symm
      _ = (e.walk.map rowOf).filter opens := congrArg _ hrows.symm
      _ = (e.walk.filter (opens ∘ rowOf)).map rowOf := List.filter_map
      _ = (e.walk.filter fun v => !v.head.kind.isLeaf).map rowOf := congrArg _ (List.filter_congr hopens)
  refine ⟨hrows.symm, hfilter, ?_⟩
  rw [hcount, Nat.zero_add, List.countP_eq_length_filter, hfilter, List.length_map, List.countP_eq_length_filter]

end Outline

end Yang

import Mathlib
import Yang.Proofs.Format.Escape

/-!
This module contains the proof that JSON values are written without ambiguity: what was written at the start of
characters is known from the characters, if what follows cannot be a part of a number. Of texts the units are known.
-/

namespace Yang

namespace Json

inductive Shape where
  | bool (b : Bool)
  | whole (n : Int)
  | text (units : List Nat)
  | list (items : List Shape)
  | object (members : List (List Nat × Shape))

mutual

def shape (value : Json) : Shape :=
  match value with
  | bool b => .bool b
  | whole n => .whole n
  | text s => .text (Text.units s)
  | list items => .list (shapes items)
  | object members => .object (memberShapes members)

def shapes (items : List Json) : List Shape :=
  match items with
  | [] => []
  | item :: rest => shape item :: shapes rest

def memberShapes (members : List (String × Json)) : List (List Nat × Shape) :=
  match members with
  | [] => []
  | (name, value) :: rest => (Text.units name, shape value) :: memberShapes rest

end

inductive Kind where
  | bool
  | whole
  | text
  | list
  | object

def kind : Json → Kind
  | bool _ => .bool
  | whole _ => .whole
  | text _ => .text
  | list _ => .list
  | object _ => .object

def kindOfFirst (c : Char) : Kind :=
  if c = 't' ∨ c = 'f' then .bool
  else if c = '"' then .text
  else if c = '[' then .list
  else if c = '\x7b' then .object
  else .whole

def Ends (rest : List Char) : Prop :=
  ∃ more, rest = ',' :: more ∨ rest = '\n' :: more

def linesText (depth : Nat) (lines : List String) : List Char :=
  lines.flatMap fun line => ',' :: ((newline depth).toList ++ line.toList)

def bracketed (left right : Char) (depth : Nat) (lines : List String) : String :=
  match lines with
  | [] => String.singleton left ++ String.singleton right
  | line :: rest =>
    String.singleton left ++ ",".intercalate ((line :: rest).map fun line => newline (depth + 1) ++ line)
      ++ newline depth ++ String.singleton right

def memberText (depth : Nat) (member : String × Json) : String :=
  quote member.1 ++ ": " ++ render depth member.2

theorem newline_eq (depth : Nat) : (newline depth).toList = '\n' :: (Text.repeated depth "  ").toList := by
  unfold newline
  rw [String.toList_append]
  rfl

theorem linesText_cons (depth : Nat) (line : String) (rest : List String) :
    linesText depth (line :: rest)
      = ',' :: '\n' :: ((Text.repeated depth "  ").toList ++ (line.toList ++ linesText depth rest)) := by
  unfold linesText
  simp only [List.flatMap_cons, newline_eq, List.cons_append, List.append_assoc]

theorem ends_linesText (depth : Nat) (lines : List String) {rest : List Char} (h : Ends rest) :
    Ends (linesText depth lines ++ rest) := by
  unfold linesText
  cases lines with
  | nil => exact h
  | cons line more => exact ⟨_, .inl rfl⟩

theorem cons_intercalate (c : Char) {texts : List String} (hne : texts ≠ []) :
    c :: ((String.singleton c).intercalate texts).toList = texts.flatMap fun text => c :: text.toList := by
  induction texts with
  | nil => exact absurd rfl hne
  | cons first rest ih =>
    cases rest with
    | nil => rw [String.intercalate_singleton, List.flatMap_singleton]
    | cons second rest =>
      rw [String.intercalate_cons_cons, String.toList_append, String.toList_append, String.toList_singleton,
        List.append_assoc, List.singleton_append, ih (List.cons_ne_nil _ _), List.flatMap_cons]
      rfl

theorem toList_bracketed (left right : Char) (depth : Nat) (line : String) (rest : List String) :
    ∃ inner, ',' :: '\n' :: inner = linesText (depth + 1) (line :: rest)
      ∧ (bracketed left right depth (line :: rest)).toList
        = left :: '\n' :: (inner ++ ((newline depth).toList ++ [right])) := by
  have hlines := cons_intercalate ',' (List.cons_ne_nil (newline (depth + 1) ++ line)
    (rest.map fun line => newline (depth + 1) ++ line))
  rw [← List.map_cons, List.flatMap_map] at hlines
  simp only [String.toList_append] at hlines
  change _ = linesText (depth + 1) (line :: rest) at hlines
  rw [linesText_cons] at hlines
  refine ⟨_, (linesText_cons _ _ _).symm, ?_⟩
  unfold bracketed
  simp only [String.toList_append, String.toList_singleton]
  change [left] ++ ((String.singleton ',').intercalate _).toList ++ _ ++ _ = _
  rw [(List.cons.inj hlines).2, List.append_assoc, List.append_assoc]
  rfl

theorem bracketed_append_inj {left right : Char} (hright : right ≠ '\n') (depth : Nat) {lines lines' : List String}
    {rest rest' : List Char}
    (h : (bracketed left right depth lines).toList ++ rest = (bracketed left right depth lines').toList ++ rest') :
    linesText (depth + 1) lines ++ '\n' :: ((Text.repeated depth "  ").toList ++ right :: rest)
      = linesText (depth + 1) lines' ++ '\n' :: ((Text.repeated depth "  ").toList ++ right :: rest') := by
  have hempty : (bracketed left right depth []).toList = [left, right] := by
    unfold bracketed
    rw [String.toList_append, String.toList_singleton, String.toList_singleton]
    rfl
  cases lines with
  | nil =>
    cases lines' with
    | nil => rw [List.append_cancel_left h]
    | cons line' more' =>
      obtain ⟨_, _, heq'⟩ := toList_bracketed left right depth line' more'
      rw [hempty, heq'] at h
      exact absurd (List.cons.inj (List.cons.inj h).2).1 hright
  | cons line more =>
    obtain ⟨inner, hinner, heq⟩ := toList_bracketed left right depth line more
    cases lines' with
    | nil =>
      rw [hempty, heq] at h
      exact absurd (List.cons.inj (List.cons.inj h).2).1.symm hright
    | cons line' more' =>
      obtain ⟨inner', hinner', heq'⟩ := toList_bracketed left right depth line' more'
      simp only [heq, heq', newline_eq, List.cons_append, List.append_assoc] at h
      rw [← hinner, ← hinner']
      exact congrArg (',' :: ·) (List.cons.inj h).2

theorem exists_toList_bracketed (left right : Char) (depth : Nat) (lines : List String) :
    ∃ more, (bracketed left right depth lines).toList = left :: more := by
  cases lines with
  | nil =>
    unfold bracketed
    rw [String.toList_append, String.toList_singleton]
    exact ⟨_, rfl⟩
  | cons line rest =>
    obtain ⟨_, _, heq⟩ := toList_bracketed left right depth line rest
    exact ⟨_, heq⟩

theorem renderItems_eq (depth : Nat) (items : List Json) :
    renderItems depth items = (items.map (render depth)).map fun line => newline depth ++ line := by
  induction items with
  | nil => rw [renderItems, List.map_nil, List.map_nil]
  | cons item rest ih => rw [renderItems, List.map_cons, List.map_cons, ih]

theorem renderMembers_eq (depth : Nat) (members : List (String × Json)) :
    renderMembers depth members = (members.map (memberText depth)).map fun line => newline depth ++ line := by
  induction members with
  | nil => rw [renderMembers, List.map_nil, List.map_nil]
  | cons member rest ih =>
    obtain ⟨name, value⟩ := member
    rw [renderMembers, List.map_cons, List.map_cons, ih]
    unfold memberText
    rw [String.append_assoc, String.append_assoc, String.append_assoc]

theorem render_list (depth : Nat) (items : List Json) :
    render depth (.list items) = bracketed '[' ']' depth (items.map (render (depth + 1))) := by
  cases items with
  | nil =>
    rw [render]
    rfl
  | cons item rest =>
    rw [render, renderItems_eq]
    rfl

theorem render_object (depth : Nat) (members : List (String × Json)) :
    render depth (.object members)
      = bracketed '\x7b' '\x7d' depth (members.map (memberText (depth + 1))) := by
  cases members with
  | nil =>
    rw [render]
    rfl
  | cons member rest =>
    rw [render, renderMembers_eq]
    rfl

def isOfWhole (c : Char) : Bool :=
  c = '-' || c.isDigit

theorem isOfWhole_of_mem_toString (n : Int) : ∀ c ∈ (toString n).toList, isOfWhole c = true := by
  have hnat : ∀ (m : Nat), ∀ c ∈ m.repr.toList, isOfWhole c = true := by
    intro m c hc
    rw [Nat.repr_eq_ofList_toDigits, String.toList_ofList] at hc
    unfold isOfWhole
    rw [Nat.isDigit_of_mem_toDigits (by decide) (by decide) hc, Bool.or_true]
  change ∀ c ∈ n.repr.toList, _
  rw [Int.repr_eq_if]
  split
  · exact hnat _
  · rw [String.toList_append, List.forall_mem_append, show "-".toList = ['-'] from rfl, List.forall_mem_singleton]
    exact ⟨by decide, hnat _⟩

theorem toString_whole_ne_empty (n : Int) : toString n ≠ "" := by
  change n.repr ≠ ""
  rw [Int.repr_eq_if]
  split
  · exact Nat.repr_ne_empty
  · exact fun h => Nat.repr_ne_empty (String.append_eq_empty_iff.1 h).2

theorem append_inj_of_forall {p : Char → Bool} {a b rest rest' : List Char} (ha : ∀ c ∈ a, p c = true)
    (hb : ∀ c ∈ b, p c = true) (hrest : ∀ c ∈ rest.head?, p c = false) (hrest' : ∀ c ∈ rest'.head?, p c = false)
    (h : a ++ rest = b ++ rest') : a = b ∧ rest = rest' := by
  induction a generalizing b with
  | nil =>
    cases b with
    | nil => exact ⟨rfl, h⟩
    | cons d b =>
      rw [List.nil_append, List.cons_append] at h
      have hd := hrest d (by rw [h]; rfl)
      rw [hb d List.mem_cons_self] at hd
      cases hd
  | cons c a ih =>
    rw [List.forall_mem_cons] at ha
    cases b with
    | nil =>
      rw [List.nil_append, List.cons_append] at h
      have hc := hrest' c (by rw [← h]; rfl)
      rw [ha.1] at hc
      cases hc
    | cons d b =>
      rw [List.forall_mem_cons] at hb
      obtain ⟨rfl, hmore⟩ := List.cons.inj h
      obtain ⟨rfl, hsame⟩ := ih ha.2 hb.2 hmore
      exact ⟨rfl, hsame⟩

theorem Ends.not_isOfWhole {rest : List Char} (h : Ends rest) : ∀ c ∈ rest.head?, isOfWhole c = false := by
  obtain ⟨more, rfl | rfl⟩ := h
  · rintro c ⟨⟩
    decide
  · rintro c ⟨⟩
    decide

theorem whole_append_inj {n n' : Int} {rest rest' : List Char} (hends : Ends rest) (hends' : Ends rest')
    (h : (toString n).toList ++ rest = (toString n').toList ++ rest') : n = n' ∧ rest = rest' := by
  obtain ⟨hdigits, hrest⟩ := append_inj_of_forall (isOfWhole_of_mem_toString n) (isOfWhole_of_mem_toString n')
    hends.not_isOfWhole hends'.not_isOfWhole h
  exact ⟨Int.repr_injective (String.toList_injective hdigits), hrest⟩

theorem kindOfFirst_eq_whole {c : Char} (h : isOfWhole c = true) : kindOfFirst c = .whole := by
  have hne : ∀ d, isOfWhole d = false → c ≠ d := by
    rintro _ hd rfl
    rw [h] at hd
    cases hd
  unfold kindOfFirst
  rw [if_neg (not_or.2 ⟨hne _ (by decide), hne _ (by decide)⟩)]
  iterate 3 rw [if_neg (hne _ (by decide))]

theorem kind_of_render (depth : Nat) (value : Json) :
    ∃ c more, (render depth value).toList = c :: more ∧ kindOfFirst c = value.kind := by
  match value with
  | .bool true =>
    rw [render]
    exact ⟨'t', _, rfl, rfl⟩
  | .bool false =>
    rw [render]
    exact ⟨'f', _, rfl, rfl⟩
  | .whole n =>
    rw [render]
    have hall := isOfWhole_of_mem_toString n
    cases hlist : (toString n).toList with
    | nil => exact absurd (String.toList_eq_nil_iff.1 hlist) (toString_whole_ne_empty n)
    | cons c more =>
      rw [hlist] at hall
      exact ⟨c, more, rfl, kindOfFirst_eq_whole (hall c List.mem_cons_self)⟩
  | .text s =>
    rw [render, toList_quote]
    exact ⟨'"', _, rfl, rfl⟩
  | .list items =>
    rw [render_list]
    obtain ⟨more, heq⟩ := exists_toList_bracketed '[' ']' depth (items.map (render (depth + 1)))
    exact ⟨'[', more, heq, rfl⟩
  | .object members =>
    rw [render_object]
    obtain ⟨more, heq⟩ := exists_toList_bracketed '\x7b' '\x7d' depth (members.map (memberText (depth + 1)))
    exact ⟨'\x7b', more, heq, rfl⟩

theorem kind_eq {depth : Nat} {value value' : Json} {rest rest' : List Char}
    (h : (render depth value).toList ++ rest = (render depth value').toList ++ rest') : value.kind = value'.kind := by
  obtain ⟨c, more, heq, hkind⟩ := kind_of_render depth value
  obtain ⟨c', more', heq', hkind'⟩ := kind_of_render depth value'
  rw [heq, heq'] at h
  rw [← hkind, ← hkind', (List.cons.inj h).1]

theorem bool_append_inj {b b' : Bool} {rest rest' : List Char}
    (h : (if b then "true" else "false").toList ++ rest = (if b' then "true" else "false").toList ++ rest') :
    b = b' ∧ rest = rest' := by
  cases b with
  | false =>
    cases b' with
    | false => exact ⟨rfl, List.append_cancel_left h⟩
    | true => exact absurd (List.cons.inj h).1 (by decide)
  | true =>
    cases b' with
    | false => exact absurd (List.cons.inj h).1 (by decide)
    | true => exact ⟨rfl, List.append_cancel_left h⟩

mutual

theorem render_append_inj (depth : Nat) (value value' : Json) {rest rest' : List Char} (hends : Ends rest)
    (hends' : Ends rest') (h : (render depth value).toList ++ rest = (render depth value').toList ++ rest') :
    shape value = shape value' ∧ rest = rest' := by
  have hkind := kind_eq h
  match value, value', hkind with
  | .bool b, .bool b', _ =>
    rw [render, render] at h
    obtain ⟨rfl, hrest⟩ := bool_append_inj h
    exact ⟨rfl, hrest⟩
  | .whole n, .whole n', _ =>
    rw [render, render] at h
    obtain ⟨rfl, hrest⟩ := whole_append_inj hends hends' h
    exact ⟨rfl, hrest⟩
  | .text s, .text s', _ =>
    rw [render, render] at h
    obtain ⟨hunits, hrest⟩ := quote_append_inj h
    rw [shape, shape, hunits]
    exact ⟨rfl, hrest⟩
  | .list items, .list items', _ =>
    rw [render_list, render_list] at h
    obtain ⟨hshapes, hrest⟩ :=
      items_append_inj (depth + 1) items items' (bracketed_append_inj (by decide) depth h)
    rw [shape, shape, hshapes]
    exact ⟨rfl, (List.cons.inj (List.append_cancel_left hrest)).2⟩
  | .object members, .object members', _ =>
    rw [render_object, render_object] at h
    obtain ⟨hshapes, hrest⟩ :=
      members_append_inj (depth + 1) members members' (bracketed_append_inj (by decide) depth h)
    rw [shape, shape, hshapes]
    exact ⟨rfl, (List.cons.inj (List.append_cancel_left hrest)).2⟩
termination_by sizeOf value

theorem items_append_inj (depth : Nat) (items items' : List Json) {rest rest' : List Char}
    (h : linesText depth (items.map (render depth)) ++ '\n' :: rest
      = linesText depth (items'.map (render depth)) ++ '\n' :: rest') :
    shapes items = shapes items' ∧ rest = rest' := by
  match items, items' with
  | [], [] => exact ⟨rfl, (List.cons.inj h).2⟩
  | [], item' :: more' => exact absurd (List.cons.inj h).1 (by decide)
  | item :: more, [] => exact absurd (List.cons.inj h).1 (by decide)
  | item :: more, item' :: more' =>
    simp only [List.map_cons, linesText_cons, List.cons_append, List.append_assoc] at h
    have hitem := List.append_cancel_left (List.cons.inj (List.cons.inj h).2).2
    obtain ⟨hshape, hmore⟩ := render_append_inj depth item item' (ends_linesText depth _ ⟨_, .inr rfl⟩)
      (ends_linesText depth _ ⟨_, .inr rfl⟩) hitem
    obtain ⟨hshapes, hrest⟩ := items_append_inj depth more more' hmore
    rw [shapes, shapes, hshape, hshapes]
    exact ⟨rfl, hrest⟩
termination_by sizeOf items

theorem members_append_inj (depth : Nat) (members members' : List (String × Json)) {rest rest' : List Char}
    (h : linesText depth (members.map (memberText depth)) ++ '\n' :: rest
      = linesText depth (members'.map (memberText depth)) ++ '\n' :: rest') :
    memberShapes members = memberShapes members' ∧ rest = rest' := by
  match members, members' with
  | [], [] => exact ⟨rfl, (List.cons.inj h).2⟩
  | [], member' :: more' => exact absurd (List.cons.inj h).1 (by decide)
  | member :: more, [] => exact absurd (List.cons.inj h).1 (by decide)
  | (name, value) :: more, (name', value') :: more' =>
    simp only [List.map_cons, linesText_cons, memberText, String.toList_append, List.cons_append, List.append_assoc]
      at h
    have hmember := List.append_cancel_left (List.cons.inj (List.cons.inj h).2).2
    obtain ⟨hname, hvalue⟩ := quote_append_inj hmember
    obtain ⟨hshape, hmore⟩ := render_append_inj depth value value' (ends_linesText depth _ ⟨_, .inr rfl⟩)
      (ends_linesText depth _ ⟨_, .inr rfl⟩) (List.append_cancel_left hvalue)
    obtain ⟨hshapes, hrest⟩ := members_append_inj depth more more' hmore
    rw [memberShapes, memberShapes, hshape, hshapes, hname]
    exact ⟨rfl, hrest⟩
termination_by sizeOf members

end

theorem shape_eq_of_render {value value' : Json} (h : render 0 value ++ "\n" = render 0 value' ++ "\n") :
    shape value = shape value' := by
  have hlist := congrArg String.toList h
  rw [String.toList_append, String.toList_append] at hlist
  exact (render_append_inj 0 value value' ⟨[], .inr rfl⟩ ⟨[], .inr rfl⟩ hlist).1

theorem shapes_eq_iff {items items' : List Json} :
    shapes items = shapes items' ↔ List.Forall₂ (fun item item' => shape item = shape item') items items' := by
  induction items generalizing items' with
  | nil => cases items' <;> simp [shapes]
  | cons item rest ih => cases items' <;> simp [shapes, ih]

theorem memberShapes_eq_iff {members members' : List (String × Json)} :
    memberShapes members = memberShapes members'
      ↔ List.Forall₂ (fun m m' => Text.units m.1 = Text.units m'.1 ∧ shape m.2 = shape m'.2) members members' := by
  induction members generalizing members' with
  | nil => cases members' <;> simp [memberShapes]
  | cons member rest ih => cases members' <;> simp [memberShapes, ih]

end Json

end Yang

import Yang.Proofs.Entry.Trail
import Yang.Proofs.Format.Order
import Yang.Proofs.Format.Row

/-!
This module contains what the list of the types in use tells about a tree: it has one line for each name that a type is
referred to by, and that is the line of the type that the first entry with such a reference has on a walk.
-/

namespace Yang

theorem typesInUse.mem_go_iff {names : List String} {types : List ResolvedType} {type : ResolvedType} :
    type ∈ go names types ↔ type.name ∉ names ∧ types.find? (fun t => t.name == type.name) = some type := by
  induction types generalizing names with
  | nil => simp [go]
  | cons first rest ih =>
    rw [go, List.find?_cons]
    by_cases hname : first.name = type.name
    · rw [beq_iff_eq.2 hname, Option.some.injEq]
      split
      · next hseen =>
        rw [List.contains_iff_mem, hname] at hseen
        rw [ih]
        exact ⟨fun h => absurd hseen h.1, fun h => absurd hseen h.1⟩
      · next hnew =>
        rw [List.contains_iff_mem, hname] at hnew
        rw [List.mem_cons, ih, hname]
        exact ⟨fun h => ⟨hnew, h.elim Eq.symm fun h => absurd List.mem_cons_self h.1⟩, fun h => .inl h.2.symm⟩
    · rw [beq_eq_false_iff_ne.2 hname]
      have hne : type ≠ first := fun heq => hname (heq ▸ rfl)
      have hother : type.name ≠ first.name := Ne.symm hname
      split
      · exact ih
      · rw [List.mem_cons, ih, List.mem_cons]
        simp only [hne, hother, false_or]

theorem typesInUse.nodup_go (names : List String) (types : List ResolvedType) :
    ((go names types).map ResolvedType.name).Nodup := by
  induction types generalizing names with
  | nil => exact List.nodup_nil
  | cons first rest ih =>
    rw [go]
    split
    · exact ih names
    · rw [List.map_cons, List.nodup_cons]
      refine ⟨fun hmem => ?_, ih _⟩
      obtain ⟨type, htype, hname⟩ := List.mem_map.1 hmem
      exact (mem_go_iff.1 htype).1 (hname ▸ List.mem_cons_self)

def ResolvedType.listed (type : ResolvedType) : String :=
  "  " ++ type.name ++ ": " ++ type.line ++ "\n"

theorem ResolvedType.toList_listed (type : ResolvedType) : type.listed.toList
    = "  ".toList ++ ((type.name ++ ":").toList ++ ' ' :: (type.line.toList ++ "\n".toList)) := by
  unfold listed
  simp only [String.toList_append, List.append_assoc]
  rfl

theorem Outline.Word.blank_not_mem {name : String} (h : Word name) : ' ' ∉ (name ++ ":").toList :=
  (word_append.2 ⟨h, word_colon⟩).not_mem rfl (by decide)

theorem ResolvedType.listed_inj {type type' : ResolvedType} (h : Outline.Word type.name)
    (h' : Outline.Word type'.name) :
    type.listed = type'.listed ↔ type.name = type'.name ∧ type.line = type'.line := by
  constructor
  · intro heq
    rw [← String.toList_inj, toList_listed, toList_listed] at heq
    have hrest := List.append_cancel_left heq
    have hpieces := congrArg (Text.pieces ' ') hrest
    rw [Text.pieces_append h.blank_not_mem, Text.pieces_append h'.blank_not_mem] at hpieces
    have hname := (List.cons.inj hpieces).1
    rw [hname] at hrest
    have hline := List.append_cancel_right (List.cons.inj (List.append_cancel_left hrest)).2
    rw [String.toList_append, String.toList_append] at hname
    exact ⟨String.toList_inj.1 (List.append_cancel_right hname), String.toList_inj.1 hline⟩
  · rintro ⟨hname, hline⟩
    unfold listed
    rw [hname, hline]

namespace Entry

variable {tree : Entry} {type : ResolvedType}

def InUse (tree : Entry) (type : ResolvedType) : Prop :=
  ∃ e, Within e tree ∧ e.head.type = some type

def types (tree : Entry) : List ResolvedType :=
  tree.walk.filterMap (fun v => v.head.type)

theorem mem_types_iff : type ∈ tree.types ↔ tree.InUse type := by
  unfold types walk
  rw [List.mem_filterMap]
  constructor
  · rintro ⟨v, hv, htype⟩
    obtain ⟨d, hd, hhead⟩ := exists_within_of_mem_visits hv
    obtain ⟨e, he, rfl⟩ := within_inOrder hd
    exact ⟨e, he, by rw [← head_inOrder, hhead, htype]⟩
  · rintro ⟨e, he, htype⟩
    obtain ⟨v, hv, hhead⟩ := List.mem_map.1 (he.inOrder.head_mem_visits [])
    exact ⟨v, hv, by rw [hhead, head_inOrder, htype]⟩

def firstType? (tree : Entry) (name : String) : Option ResolvedType :=
  tree.types.find? (fun type => type.name == name)

theorem firstType?_spec {name : String} (h : tree.firstType? name = some type) :
    tree.InUse type ∧ type.name = name :=
  ⟨mem_types_iff.1 (List.mem_of_find?_eq_some h), beq_iff_eq.1 (List.find?_some h :)⟩

theorem exists_firstType? (h : tree.InUse type) : ∃ first, tree.firstType? type.name = some first := by
  rw [← Option.isSome_iff_exists]
  exact List.find?_isSome.2 ⟨type, mem_types_iff.2 h, beq_self_eq_true _⟩

/--
What lines tell about the types in a tree when only the first type of each name has a line.
-/
structure Lists (tree : Entry) (listing : List String) : Prop where
  lines : ∃ types : List ResolvedType, listing = ("module: " ++ tree.name ++ "\n") :: types.map ResolvedType.listed
    ∧ types.Pairwise (fun a b => a.name < b.name) ∧ ∀ type, type ∈ types ↔ tree.firstType? type.name = some type
  first : ∀ type, tree.InUse type → ∃ first, tree.firstType? type.name = some first ∧ tree.InUse first
    ∧ first.name = type.name ∧ first.listed ∈ listing ∧ (type.listed ∈ listing ↔ first.line = type.line)
  apart : ∀ type type' first first' : ResolvedType, tree.firstType? type.name = some first →
    tree.firstType? type'.name = some first' → (first.listed = first'.listed ↔ type.name = type'.name)
  all : (∀ type, tree.InUse type → type.listed ∈ listing)
    ↔ ∀ type type', tree.InUse type → tree.InUse type' → type.name = type'.name → type.line = type'.line

theorem mem_typesInUse_walk : type ∈ typesInUse tree.walk ↔ tree.firstType? type.name = some type := by
  unfold typesInUse firstType? types
  rw [typesInUse.mem_go_iff]
  simp only [List.not_mem_nil, not_false_eq_true, true_and]

theorem listed_mem_typeLinesOf_iff (hword : ∀ type, tree.InUse type → Outline.Word type.name)
    (h : tree.InUse type) {first : ResolvedType} (hfirst : tree.firstType? type.name = some first) :
    type.listed ∈ typeLinesOf tree.name tree.walk ↔ first.line = type.line := by
  obtain ⟨hmem, hname⟩ := firstType?_spec hfirst
  constructor
  · intro hline
    rcases List.mem_cons.1 hline with heq | hline
    · -- the first line starts with a letter
      have hstart := congrArg (fun s => s.toList.head?) heq
      simp [ResolvedType.toList_listed, String.toList_append] at hstart
    · obtain ⟨other, hother, heq⟩ := List.mem_map.1 hline
      rw [List.mem_mergeSort, mem_typesInUse_walk] at hother
      obtain ⟨hsame, hlines⟩ := (ResolvedType.listed_inj (hword _ (firstType?_spec hother).1) (hword _ h)).1 heq
      rw [hsame, hfirst, Option.some.injEq] at hother
      rw [hother, hlines]
  · intro hline
    have hlisted := (ResolvedType.listed_inj (hword _ hmem) (hword _ h)).2 ⟨hname, hline⟩
    refine List.mem_cons_of_mem _ (List.mem_map.2 ⟨first, List.mem_mergeSort.2 (mem_typesInUse_walk.2 ?_), hlisted⟩)
    rw [hname, hfirst]

theorem lists_typeLinesOf (hword : ∀ type, tree.InUse type → Outline.Word type.name) :
    tree.Lists (typeLinesOf tree.name tree.walk) where
  lines := by
    refine ⟨_, rfl, pairwise_lt_mergeSort (typesInUse.nodup_go _ _), fun type => ?_⟩
    rw [List.mem_mergeSort, mem_typesInUse_walk]
  first := by
    intro type htype
    obtain ⟨first, hfirst⟩ := exists_firstType? htype
    obtain ⟨hmem, hname⟩ := firstType?_spec hfirst
    refine ⟨first, hfirst, hmem, hname, ?_, listed_mem_typeLinesOf_iff hword htype hfirst⟩
    exact (listed_mem_typeLinesOf_iff hword hmem (hname ▸ hfirst)).2 rfl
  apart := by
    intro type type' first first' hfirst hfirst'
    obtain ⟨hmem, hname⟩ := firstType?_spec hfirst
    obtain ⟨hmem', hname'⟩ := firstType?_spec hfirst'
    rw [ResolvedType.listed_inj (hword _ hmem) (hword _ hmem'), hname, hname']
    refine ⟨And.left, fun hsame => ⟨hsame, ?_⟩⟩
    rw [hsame, hfirst', Option.some.injEq] at hfirst
    rw [hfirst]
  all := by
    constructor
    · intro hall type type' htype htype' hsame
      obtain ⟨first, hfirst⟩ := exists_firstType? htype
      have hfirst' := hfirst
      rw [hsame] at hfirst'
      rw [← (listed_mem_typeLinesOf_iff hword htype hfirst).1 (hall type htype),
        (listed_mem_typeLinesOf_iff hword htype' hfirst').1 (hall type' htype')]
    · intro hsame type htype
      obtain ⟨first, hfirst⟩ := exists_firstType? htype
      obtain ⟨hmem, hname⟩ := firstType?_spec hfirst
      exact (listed_mem_typeLinesOf_iff hword htype hfirst).2 (hsame first type hmem htype hname)

end Entry

theorem exists_typesFormat : ∃ formatter, Registry.builtin.lookup "types" = some formatter
    ∧ ∀ entries, formatter.render entries = .ok (String.join (entries.flatMap fun e => typeLinesOf e.name e.walk)) :=
  ⟨_, rfl, fun _ => rfl⟩

end Yang

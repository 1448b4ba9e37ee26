import Yang.Proofs.Format.Order
import Yang.Proofs.Format.Unambiguous
import Yang.Proofs.Tree.Restricted

/-!
This module contains the proof that the JSON form of a tree tells everything about it but the order of children and
where entries below the root belong. What is left out says nothing, and no restriction of a type takes the place of
another member. Of texts the units are told.
-/

namespace Yang

inductive Facet.Tallies : Facet → Facet → Prop
  | text {s s' : String} (h : Text.Same s s') : Tallies (.text s) (.text s')
  | names {list list' : List String} (h : List.Forall₂ Text.Same list list') : Tallies (.names list) (.names list')

structure ResolvedType.Tallies (type type' : ResolvedType) : Prop where
  name : Text.Same type.name type'.name
  base : Text.Same type.base type'.base
  facets : List.Forall₂ (fun p p' => p.1 = p'.1 ∧ p.2.Tallies p'.2) type.facets type'.facets
  typedefs : List.Forall₂ Text.Same type.typedefs type'.typedefs
  default : Option.Rel Text.Same type.default type'.default
  units : Option.Rel Text.Same type.units type'.units

/--
Whether entries are the same, up to halves of pairs in texts, and but for where an entry belongs that is no root. An
empty description is none.
-/
structure EntryHead.Tallies (head head' : EntryHead) : Prop where
  name : Text.Same head.name head'.name
  kind : head.kind = head'.kind
  prefixId : Text.Same head.prefixId head'.prefixId
  uri : head.kind = .module → Text.Same head.uri head'.uri
  description : Option.Rel Text.Same (head.description.filter (fun s => s != ""))
    (head'.description.filter (fun s => s != ""))
  config : head.config = head'.config
  type : Option.Rel ResolvedType.Tallies head.type head'.type
  keys : List.Forall₂ Text.Same head.keys head'.keys
  mandatory : head.mandatory = head'.mandatory
  default : Option.Rel Text.Same head.default head'.default
  units : Option.Rel Text.Same head.units head'.units
  presence : Option.Rel Text.Same head.presence head'.presence
  minElements : head.minElements = head'.minElements
  maxElements : head.maxElements = head'.maxElements
  orderedBy : Option.Rel Text.Same head.orderedBy head'.orderedBy

/--
Whether trees have entries in the same places that are the same as far as JSON can tell.
-/
inductive Entry.Tallies : Entry → Entry → Prop
  | mk {head head' : EntryHead} {children children' : List Entry} (hhead : head.Tallies head')
    (hchildren : List.Forall₂ Tallies children children') : Tallies (.mk head children) (.mk head' children')

theorem Entry.Tallies.head {e e' : Entry} (h : e.Tallies e') : e.head.Tallies e'.head := by
  cases h with
  | mk hhead _ => exact hhead

namespace Json

def memberNames : List String :=
  ["name", "node", "prefix", "config", "namespace", "description", "type", "key", "mandatory", "default", "units",
    "presence", "min_elements", "max_elements", "ordered_by", "children", "base", "typedefs", "enums", "range",
    "length", "pattern", "path"]

theorem eq_of_units_eq {name name' : String} (h : Text.units name = Text.units name') (hname : name ∈ memberNames)
    (hname' : name' ∈ memberNames) : name = name' := by
  have hnodup : (memberNames.map Text.units).Nodup := by decide
  exact List.inj_on_of_nodup_map hnodup hname hname' h

def Alike (members members' : List (String × Json)) : Prop :=
  List.Forall₂ (fun m m' => m.1 = m'.1 ∧ shape m.2 = shape m'.2) members members'

variable {members members' : List (String × Json)}

theorem alike_of_memberShapes_eq (h : memberShapes members = memberShapes members')
    (hnames : ∀ n ∈ members.map Prod.fst, n ∈ memberNames) (hnames' : ∀ n ∈ members'.map Prod.fst, n ∈ memberNames) :
    Alike members members' := by
  rw [memberShapes_eq_iff] at h
  unfold Alike
  induction h with
  | nil => exact .nil
  | cons hmember _ ih =>
    rw [List.map_cons, List.forall_mem_cons] at hnames hnames'
    exact .cons ⟨eq_of_units_eq hmember.1 hnames.1 hnames'.1, hmember.2⟩ (ih hnames.2 hnames'.2)

theorem Alike.lookup (h : Alike members members') (name : String) :
    Option.Rel (fun value value' => shape value = shape value') (members.lookup name) (members'.lookup name) := by
  induction h with
  | nil => exact .none
  | @cons m m' _ _ hmember _ ih =>
    obtain ⟨n, value⟩ := m
    obtain ⟨n', value'⟩ := m'
    obtain ⟨rfl, hshape⟩ := hmember
    rw [List.lookup_cons, List.lookup_cons]
    dsimp only
    split
    · exact .some hshape
    · exact ih

theorem Alike.filter (h : Alike members members') (p : String → Bool) :
    Alike (members.filter (fun m => p m.1)) (members'.filter (fun m => p m.1)) := by
  apply List.rel_filter _ h
  intro m m' hmember
  dsimp only
  rw [hmember.1]

theorem lookup_member (name key : String) (value : Json) (rest : List (String × Json)) :
    ((name, value) :: rest).lookup key = if key = name then some value else rest.lookup key := by
  rw [List.lookup_cons]
  split
  · next h => rw [if_pos (eq_of_beq h)]
  · next h => rw [if_neg (beq_eq_false_iff_ne.1 h)]

theorem lookup_optional {α : Type} (name key : String) (write : α → Json) (o : Option α) :
    (optional name write o).lookup key = if key = name then o.map write else none := by
  cases o with
  | none => exact (ite_self _).symm
  | some a => exact lookup_member name key (write a) []

theorem lookup_when (condition : Bool) (name key : String) (value : Json) :
    (when condition name value).lookup key = if key = name then if condition then some value else none else none := by
  cases condition with
  | false => exact (ite_self _).symm
  | true => exact lookup_member name key value []

theorem names_optional {α : Type} (name : String) (write : α → Json) (o : Option α) :
    ((optional name write o).map Prod.fst).Sublist [name] := by
  cases o with
  | none => exact List.nil_sublist _
  | some a => exact .refl _

theorem names_when (condition : Bool) (name : String) (value : Json) :
    ((when condition name value).map Prod.fst).Sublist [name] := by
  cases condition with
  | false => exact List.nil_sublist _
  | true => exact .refl _

theorem shape_text_eq_iff {s s' : String} : shape (.text s) = shape (.text s') ↔ Text.Same s s' := by
  rw [shape, shape, Shape.text.injEq, Text.same_iff]

theorem rel_of_map {α β : Type} {r : β → β → Prop} {f : α → β} {o o' : Option α}
    (h : Option.Rel r (o.map f) (o'.map f)) : Option.Rel (fun a a' => r (f a) (f a')) o o' := by
  cases o with
  | none =>
    cases o' with
    | none => exact .none
    | some a' => cases h
  | some a =>
    cases o' with
    | none => cases h
    | some a' =>
      cases h with
      | some h => exact .some h

theorem same_of_texts {o o' : Option String}
    (h : Option.Rel (fun v v' => shape v = shape v') (o.map text) (o'.map text)) : Option.Rel Text.Same o o' := by
  have hrel := rel_of_map h
  simpa only [shape_text_eq_iff] using hrel

theorem eq_of_wholes {o o' : Option Int}
    (h : Option.Rel (fun v v' => shape v = shape v') (o.map whole) (o'.map whole)) : o = o' := by
  have hrel := rel_of_map h
  cases hrel with
  | none => rfl
  | some hshape =>
    rw [shape, shape, Shape.whole.injEq] at hshape
    rw [hshape]

theorem rel_ite {r : Json → Json → Prop} {condition condition' : Bool} {value value' : Json}
    (h : Option.Rel r (if condition then some value else none) (if condition' then some value' else none)) :
    condition = condition' ∧ (condition = true → r value value') := by
  cases condition with
  | false =>
    cases condition' with
    | false => exact ⟨rfl, nofun⟩
    | true => cases h
  | true =>
    cases condition' with
    | false => cases h
    | true => exact ⟨rfl, fun _ => Option.rel_some_some.1 h⟩

theorem shape_texts_eq_iff {list list' : List String} :
    shape (.list (list.map text)) = shape (.list (list'.map text)) ↔ List.Forall₂ Text.Same list list' := by
  rw [shape, shape, Shape.list.injEq, shapes_eq_iff, List.forall₂_map_left_iff, List.forall₂_map_right_iff]
  simp only [shape_text_eq_iff]

theorem same_of_lists {list list' : List String}
    (h : Option.Rel (fun v v' => shape v = shape v') (if !list.isEmpty then some (.list (list.map text)) else none)
      (if !list'.isEmpty then some (.list (list'.map text)) else none)) : List.Forall₂ Text.Same list list' := by
  obtain ⟨hempty, hlists⟩ := rel_ite h
  cases list with
  | nil =>
    cases list' with
    | nil => exact .nil
    | cons s' rest' => cases hempty
  | cons s rest => exact shape_texts_eq_iff.1 (hlists rfl)

end Json

theorem Facet.tallies_of_shape {facet facet' : Facet} (h : Json.shape facet.toJson = Json.shape facet'.toJson) :
    facet.Tallies facet' := by
  unfold toJson at h
  cases facet with
  | text s =>
    cases facet' with
    | text s' => exact .text (Json.shape_text_eq_iff.1 h)
    | names list' => simp [Json.shape] at h
  | names list =>
    cases facet' with
    | text s' => simp [Json.shape] at h
    | names list' => exact .names (Json.shape_texts_eq_iff.1 h)

theorem EntryKind.eq_of_same_word {kind kind' : EntryKind} (h : Text.Same kind.word kind'.word) : kind = kind' := by
  have hall : ∀ kind : EntryKind, kind ∈ all := by
    intro kind
    cases kind <;> decide
  have hnodup : (all.map fun kind => Text.units kind.word).Nodup := by decide
  exact List.inj_on_of_nodup_map hnodup (hall kind) (hall kind') (Text.same_iff.1 h)

theorem put_eq_append {α : Type} {name : String} {value : α} {table : List (String × α)}
    (h : name ∉ table.map Prod.fst) : put name value table = table ++ [(name, value)] := by
  induction table with
  | nil => rfl
  | cons p rest ih =>
    obtain ⟨n, v⟩ := p
    rw [List.map_cons, List.mem_cons, not_or] at h
    unfold put
    rw [if_neg (Ne.symm h.1), ih h.2]
    rfl

theorem putAll_eq_append {α : Type} {table more : List (String × α)} (h : ((table ++ more).map Prod.fst).Nodup) :
    putAll table more = table ++ more := by
  unfold putAll
  induction more generalizing table with
  | nil => rw [List.foldl_nil, List.append_nil]
  | cons p rest ih =>
    have hfresh : p.1 ∉ table.map Prod.fst := by
      rw [List.map_append, List.map_cons, List.nodup_append] at h
      intro hin
      exact h.2.2 _ hin _ List.mem_cons_self rfl
    rw [List.foldl_cons, put_eq_append hfresh, ih, List.append_assoc]
    · rfl
    · rwa [List.append_assoc]

namespace ResolvedType

variable {type type' : ResolvedType}

def before (type : ResolvedType) : List (String × Json) :=
  [("name", Json.text type.name), ("base", Json.text type.base)]
    ++ Json.when (!type.typedefs.isEmpty) "typedefs" (.list (type.typedefs.map Json.text))

def inner (type : ResolvedType) : List (String × Json) :=
  type.facets.map (fun p => (p.1, p.2.toJson))

def after (type : ResolvedType) : List (String × Json) :=
  Json.optional "default" .text type.default ++ Json.optional "units" .text type.units

theorem names_before (type : ResolvedType) : (type.before.map Prod.fst).Sublist ["name", "base", "typedefs"] := by
  unfold before
  rw [List.map_append]
  exact (List.Sublist.refl ["name", "base"]).append (Json.names_when _ _ _)

theorem names_inner (type : ResolvedType) : type.inner.map Prod.fst = type.facets.map Prod.fst := by
  unfold inner
  rw [List.map_map]
  rfl

theorem names_after (type : ResolvedType) : (type.after.map Prod.fst).Sublist ["default", "units"] := by
  unfold after
  rw [List.map_append]
  exact (Json.names_optional _ _ _).append (Json.names_optional _ _ _)

theorem Regular.nodup_members (h : type.Regular) : ((type.before ++ type.inner ++ type.after).map Prod.fst).Nodup := by
  have hbefore := type.names_before
  have hafter := type.names_after
  have hnames := h.names
  rw [List.map_append, List.map_append, List.nodup_append, List.nodup_append, type.names_inner]
  refine ⟨⟨hbefore.nodup (by decide), h.nodup, ?_⟩, hafter.nodup (by decide), ?_⟩
  · have hne : ∀ n ∈ ["name", "base", "typedefs"], ∀ n' ∈ Restrictions.names, n ≠ n' := by decide
    intro n hn n' hn'
    exact hne n (hbefore.subset hn) n' (hnames n' hn')
  · have hne : ∀ n ∈ ["name", "base", "typedefs"] ++ Restrictions.names, ∀ n' ∈ ["default", "units"], n ≠ n' := by
      decide
    intro n hn n' hn'
    have hn : n ∈ ["name", "base", "typedefs"] ++ Restrictions.names :=
      List.mem_append.2 ((List.mem_append.1 hn).imp (fun hn => hbefore.subset hn) (hnames n))
    exact hne n hn n' (hafter.subset hn')

theorem Regular.toJson_eq (h : type.Regular) : type.toJson = .object (type.before ++ type.inner ++ type.after) := by
  have hnodup := h.nodup_members
  have hfirst := hnodup
  rw [List.map_append, List.nodup_append] at hfirst
  change Json.object (putAll (putAll type.before type.inner) type.after) = _
  rw [putAll_eq_append hfirst.1, putAll_eq_append hnodup]

theorem Regular.names_members (h : type.Regular) :
    ∀ n ∈ (type.before ++ type.inner ++ type.after).map Prod.fst, n ∈ Json.memberNames := by
  rw [List.map_append, List.map_append, List.forall_mem_append, List.forall_mem_append, type.names_inner]
  refine ⟨⟨fun n hn => ?_, fun n hn => ?_⟩, fun n hn => ?_⟩
  · have hall : ["name", "base", "typedefs"] ⊆ Json.memberNames := by decide
    exact hall (type.names_before.subset hn)
  · have hall : Restrictions.names ⊆ Json.memberNames := by decide
    exact hall (h.names n hn)
  · have hall : ["default", "units"] ⊆ Json.memberNames := by decide
    exact hall (type.names_after.subset hn)

theorem Regular.name_mem (h : type.Regular) {m : String × Json} (hm : m ∈ type.inner) : m.1 ∈ Restrictions.names := by
  apply h.names
  rw [← type.names_inner]
  exact List.mem_map_of_mem hm

theorem Regular.filter_members (h : type.Regular) :
    (type.before ++ type.inner ++ type.after).filter (fun m => Restrictions.names.contains m.1) = type.inner := by
  have hinner : ∀ m ∈ type.inner, Restrictions.names.contains m.1 = true := by
    intro m hm
    rw [List.contains_iff_mem]
    exact h.name_mem hm
  have hbefore : ∀ m ∈ type.before, ¬ Restrictions.names.contains m.1 = true := by
    intro m hm
    have hall : ∀ n ∈ ["name", "base", "typedefs"], ¬ Restrictions.names.contains n = true := by decide
    exact hall _ (type.names_before.subset (List.mem_map_of_mem hm))
  have hafter : ∀ m ∈ type.after, ¬ Restrictions.names.contains m.1 = true := by
    intro m hm
    have hall : ∀ n ∈ ["default", "units"], ¬ Restrictions.names.contains n = true := by decide
    exact hall _ (type.names_after.subset (List.mem_map_of_mem hm))
  rw [List.filter_append, List.filter_append, List.filter_eq_nil_iff.2 hbefore, List.filter_eq_self.2 hinner,
    List.filter_eq_nil_iff.2 hafter, List.nil_append, List.append_nil]

theorem Regular.lookup_members (h : type.Regular) {key : String} (hkey : key ∉ Restrictions.names) :
    (type.before ++ type.inner ++ type.after).lookup key = (type.before ++ type.after).lookup key := by
  have hinner : type.inner.lookup key = none := by
    rw [List.lookup_eq_none_iff]
    intro m hm
    rw [bne_iff_ne]
    rintro rfl
    exact hkey (h.name_mem hm)
  rw [List.lookup_append, List.lookup_append, List.lookup_append, hinner, Option.or_none]

theorem forall₂_facets (h : Json.Alike type.inner type'.inner) :
    List.Forall₂ (fun p p' => p.1 = p'.1 ∧ p.2.Tallies p'.2) type.facets type'.facets := by
  unfold Json.Alike inner at h
  rw [List.forall₂_map_left_iff, List.forall₂_map_right_iff] at h
  refine h.imp ?_
  rintro ⟨n, facet⟩ ⟨n', facet'⟩ ⟨hname, hshape⟩
  exact ⟨hname, Facet.tallies_of_shape hshape⟩

theorem Regular.tallies (h : type.Regular) (h' : type'.Regular)
    (hshape : Json.shape type.toJson = Json.shape type'.toJson) : type.Tallies type' := by
  rw [h.toJson_eq, h'.toJson_eq, Json.shape, Json.shape, Json.Shape.object.injEq] at hshape
  have halike := Json.alike_of_memberShapes_eq hshape h.names_members h'.names_members
  have hfacets := halike.filter (fun n => Restrictions.names.contains n)
  rw [h.filter_members, h'.filter_members] at hfacets
  have hread : ∀ key ∉ Restrictions.names, Option.Rel (fun value value' => Json.shape value = Json.shape value')
      ((type.before ++ type.after).lookup key) ((type'.before ++ type'.after).lookup key) := by
    intro key hkey
    rw [← h.lookup_members hkey, ← h'.lookup_members hkey]
    exact halike.lookup key
  have hname := hread "name" (by decide)
  have hbase := hread "base" (by decide)
  have htypedefs := hread "typedefs" (by decide)
  have hdefault := hread "default" (by decide)
  have hunits := hread "units" (by decide)
  simp only [before, after, List.cons_append, List.nil_append, Json.lookup_member, List.lookup_append,
    Json.lookup_optional, Json.lookup_when, String.reduceEq, if_false, if_true, Option.none_or, Option.or_none]
    at hname hbase htypedefs hdefault hunits
  simp only [Option.rel_some_some, Json.shape_text_eq_iff] at hname hbase
  exact ⟨hname, hbase, forall₂_facets hfacets, Json.same_of_lists htypedefs, Json.same_of_texts hdefault,
    Json.same_of_texts hunits⟩

end ResolvedType

namespace EntryHead

variable {head head' : EntryHead}

def allMembers (head : EntryHead) (hasChildren : Bool) (children : Json) : List (String × Json) :=
  head.members ++ Json.when hasChildren "children" children

theorem names_members (head : EntryHead) : (head.members.map Prod.fst).Sublist
    ["name", "node", "prefix", "config", "namespace", "description", "type", "key", "mandatory", "default", "units",
      "presence", "min_elements", "max_elements", "ordered_by"] := by
  have h := List.Sublist.refl ["name", "node", "prefix", "config"]
  have h := h.append (Json.names_when (head.kind == .module) "namespace" (.text head.uri))
  have h := h.append (Json.names_optional "description" .text (head.description.filter (fun s => s != "")))
  have h := h.append (Json.names_optional "type" ResolvedType.toJson head.type)
  have h := h.append (Json.names_when (!head.keys.isEmpty) "key" (.list (head.keys.map Json.text)))
  have h := h.append (Json.names_when head.mandatory "mandatory" (.bool true))
  have h := h.append (Json.names_optional "default" .text head.default)
  have h := h.append (Json.names_optional "units" .text head.units)
  have h := h.append (Json.names_optional "presence" .text head.presence)
  have h := h.append (Json.names_optional "min_elements" .whole head.minElements)
  have h := h.append (Json.names_optional "max_elements" .whole head.maxElements)
  have h := h.append (Json.names_optional "ordered_by" .text head.orderedBy)
  unfold members
  simp only [List.map_append]
  exact h

theorem names_allMembers (head : EntryHead) (hasChildren : Bool) (children : Json) :
    ∀ n ∈ (head.allMembers hasChildren children).map Prod.fst, n ∈ Json.memberNames := by
  have h := (names_members head).append (Json.names_when hasChildren "children" children)
  have hall : ["name", "node", "prefix", "config", "namespace", "description", "type", "key", "mandatory", "default",
      "units", "presence", "min_elements", "max_elements", "ordered_by", "children"] ⊆ Json.memberNames := by decide
  unfold allMembers
  rw [List.map_append]
  intro n hn
  exact hall (h.subset hn)

theorem types_of_rel (hregular : head.Regular) (hregular' : head'.Regular)
    (h : Option.Rel (fun value value' => Json.shape value = Json.shape value') (head.type.map ResolvedType.toJson)
      (head'.type.map ResolvedType.toJson)) : Option.Rel ResolvedType.Tallies head.type head'.type := by
  have hrel := Json.rel_of_map h
  unfold Regular at hregular hregular'
  generalize head.type = type at hregular hrel ⊢
  generalize head'.type = type' at hregular' hrel ⊢
  cases hrel with
  | none => exact .none
  | some hshape => exact .some ((hregular _ rfl).tallies (hregular' _ rfl) hshape)

theorem tallies_of_alike {hasChildren hasChildren' : Bool} {children children' : Json} (hregular : head.Regular)
    (hregular' : head'.Regular)
    (halike : Json.Alike (head.allMembers hasChildren children) (head'.allMembers hasChildren' children')) :
    head.Tallies head' := by
  have hname := halike.lookup "name"
  have hkind := halike.lookup "node"
  have hprefix := halike.lookup "prefix"
  have hconfig := halike.lookup "config"
  have huri := halike.lookup "namespace"
  have hdescription := halike.lookup "description"
  have htype := halike.lookup "type"
  have hkeys := halike.lookup "key"
  have hmandatory := halike.lookup "mandatory"
  have hdefault := halike.lookup "default"
  have hunits := halike.lookup "units"
  have hpresence := halike.lookup "presence"
  have hmin := halike.lookup "min_elements"
  have hmax := halike.lookup "max_elements"
  have hordered := halike.lookup "ordered_by"
  simp only [allMembers, members, List.append_assoc, List.cons_append, List.nil_append, Json.lookup_member,
    List.lookup_append, Json.lookup_optional, Json.lookup_when, String.reduceEq, if_false, if_true, Option.none_or,
    Option.or_none]
    at hname hkind hprefix hconfig huri hdescription htype hkeys hmandatory hdefault hunits hpresence hmin hmax hordered
  simp only [Option.rel_some_some, Json.shape_text_eq_iff] at hname hkind hprefix hconfig
  have hkind := EntryKind.eq_of_same_word hkind
  constructor
  · exact hname
  · exact hkind
  · exact hprefix
  · intro hmodule
    exact Json.shape_text_eq_iff.1 ((Json.rel_ite huri).2 (beq_iff_eq.2 hmodule))
  · exact Json.same_of_texts hdescription
  · simpa [Json.shape] using hconfig
  · exact types_of_rel hregular hregular' htype
  · exact Json.same_of_lists hkeys
  · exact (Json.rel_ite hmandatory).1
  · exact Json.same_of_texts hdefault
  · exact Json.same_of_texts hunits
  · exact Json.same_of_texts hpresence
  · exact Json.eq_of_wholes hmin
  · exact Json.eq_of_wholes hmax
  · exact Json.same_of_texts hordered

theorem shape_children {hasChildren hasChildren' : Bool} {children children' : Json}
    (halike : Json.Alike (head.allMembers hasChildren children) (head'.allMembers hasChildren' children')) :
    hasChildren = hasChildren' ∧ (hasChildren = true → Json.shape children = Json.shape children') := by
  have hchildren := halike.lookup "children"
  simp only [allMembers, members, List.append_assoc, List.cons_append, List.nil_append, Json.lookup_member,
    List.lookup_append, Json.lookup_optional, Json.lookup_when, String.reduceEq, if_false, if_true, Option.none_or]
    at hchildren
  exact Json.rel_ite hchildren

end EntryHead

namespace Entry

theorem All.inOrder {p : EntryHead → Prop} {e : Entry} (h : e.All (fun head _ => p head)) :
    e.inOrder.All (fun head _ => p head) := by
  intro d hd
  obtain ⟨c, hc, rfl⟩ := within_inOrder hd
  rw [head_inOrder]
  exact h c hc

mutual

theorem tallies_of_shape (e e' : Entry) (hregular : e.All (fun head _ => head.Regular))
    (hregular' : e'.All (fun head _ => head.Regular)) (h : Json.shape e.membersOf = Json.shape e'.membersOf) :
    e.Tallies e' := by
  match e, e' with
  | mk head children, mk head' children' =>
    rw [membersOf, membersOf, Json.shape, Json.shape, Json.Shape.object.injEq] at h
    have halike := Json.alike_of_memberShapes_eq h (head.names_allMembers _ _) (head'.names_allMembers _ _)
    obtain ⟨hempty, hshape⟩ := EntryHead.shape_children halike
    refine .mk (EntryHead.tallies_of_alike hregular.self hregular'.self halike) ?_
    have hmembers : Json.memberShapes (membersOfAll children) = Json.memberShapes (membersOfAll children') := by
      cases children with
      | nil =>
        cases children' with
        | nil => rfl
        | cons c' rest' => cases hempty
      | cons c rest =>
        have hobjects := hshape rfl
        rw [Json.shape, Json.shape, Json.Shape.object.injEq] at hobjects
        exact hobjects
    exact tallies_of_memberShapes children children' (fun c => hregular.child) (fun c => hregular'.child) hmembers
termination_by sizeOf e

theorem tallies_of_memberShapes (entries entries' : List Entry)
    (hregular : ∀ e ∈ entries, e.All (fun head _ => head.Regular))
    (hregular' : ∀ e ∈ entries', e.All (fun head _ => head.Regular))
    (h : Json.memberShapes (membersOfAll entries) = Json.memberShapes (membersOfAll entries')) :
    List.Forall₂ Tallies entries entries' := by
  match entries, entries' with
  | [], [] => exact .nil
  | [], e' :: rest' => exact nomatch h
  | e :: rest, [] => exact nomatch h
  | e :: rest, e' :: rest' =>
    rw [List.forall_mem_cons] at hregular hregular'
    rw [membersOfAll, membersOfAll, Json.memberShapes, Json.memberShapes, List.cons.injEq, Prod.mk.injEq] at h
    refine .cons (tallies_of_shape e e' hregular.1 hregular'.1 h.1.2) ?_
    exact tallies_of_memberShapes rest rest' hregular.2 hregular'.2 h.2
termination_by sizeOf entries

end

theorem shape_of_renderJson {entries entries' : List Entry} {text : String} (h : renderJson entries = .ok text)
    (h' : renderJson entries' = .ok text) :
    List.Forall₂ (fun e e' => Json.shape (toJson e) = Json.shape (toJson e')) entries entries' := by
  unfold renderJson at h h'
  dsimp only at h h'
  split at h
  · split at h'
    · have hshape := Json.shape_eq_of_render ((Except.ok.inj h).trans (Except.ok.inj h').symm)
      rw [Json.shape, Json.shape, Json.Shape.list.injEq, Json.shapes_eq_iff, List.forall₂_map_left_iff,
        List.forall₂_map_right_iff] at hshape
      exact hshape
    · cases h'
  · cases h

theorem tallies_of_renderJson {entries entries' : List Entry} {text : String}
    (hregular : ∀ e ∈ entries, e.All (fun head _ => head.Regular))
    (hregular' : ∀ e ∈ entries', e.All (fun head _ => head.Regular)) (h : renderJson entries = .ok text)
    (h' : renderJson entries' = .ok text) :
    List.Forall₂ (fun e e' => e.inOrder.Tallies e'.inOrder) entries entries' := by
  have hshapes := shape_of_renderJson h h'
  clear h h'
  induction hshapes with
  | nil => exact .nil
  | cons hshape _ ih =>
    rw [List.forall_mem_cons] at hregular hregular'
    refine .cons ?_ (ih hregular.2 hregular'.2)
    exact tallies_of_shape _ _ hregular.1.inOrder hregular'.1.inOrder hshape

end Entry

end Yang

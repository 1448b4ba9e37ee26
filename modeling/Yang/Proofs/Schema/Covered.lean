import Yang.Proofs.Keyed
import Yang.Proofs.Schema.Reads

/-!
This module contains that no part of a document is passed over. Each key of each mapping in it, at any depth, is that of
a field of the model that the mapping is read as.
-/

namespace Yang

open Yang.Yaml (Value)
open Checked Record

inductive Model where
  | main
  | part
  | imported
  | typedef
  | grouping
  | augment
  | node (kind : NodeKind)

def Model.keys : Model → List Key
  | main => Body.keys ++ [Module.nameKey, "namespace"]
  | part => Body.keys ++ [Submodule.nameKey, Submodule.ownerKey]
  | imported => plainKeys ["module", "prefix"]
  | typedef => Typedef.keys
  | grouping => plainKeys ["name", "description", "nodes"]
  | augment => plainKeys ["target", "description", "nodes"]
  | node kind => kind.keys

inductive Shape where
  | scalar
  | list (items : Shape)
  | model (m : Model)
  | node

def Shape.ofKnown : Option NodeKind → Shape
  | some kind => model (.node kind)
  | none => node

def Key.shape (key : Key) : Shape :=
  match key.spelled with
  | "nodes" => .list .node
  | "cases" => .list (.model (.node .case))
  | "imports" => .list (.model .imported)
  | "typedefs" => .list (.model .typedef)
  | "groupings" => .list (.model .grouping)
  | "augments" => .list (.model .augment)
  | "includes" => .list .scalar
  | "enums" => .list .scalar
  | _ => .scalar

namespace Yaml.Value

def IsScalar : Value → Prop
  | sequence .. | pair .. | set _ | mapping .. => False
  | _ => True

inductive Within (value : Value) : Value → Prop
  | self : Within value value
  | item {whole item : Value} {items : List Value} (hitems : Field.items? whole = some items) (hitem : item ∈ items)
    (h : Within value item) : Within value whole
  | entry {label : Option Nat} {entries : Entries} {e : Value × Value} (he : e ∈ entries) (h : Within value e.2) :
    Within value (.mapping label entries)

def Keyed (value : Value) : Prop :=
  ∀ label entries, Within (.mapping label entries) value → (entries.map Prod.fst).Nodup

theorem field?_of_mem {s : String} {value : Value} {entries : Entries} (hnodup : (entries.map Prod.fst).Nodup)
    (h : (text s, value) ∈ entries) : field? s entries = some value := by
  induction entries with
  | nil => cases h
  | cons e rest ih =>
    obtain ⟨key, first⟩ := e
    rw [List.map_cons, List.nodup_cons] at hnodup
    rcases List.mem_cons.1 h with heq | hrest
    · cases heq
      rw [field?, if_pos rfl]
    · have hne : key ≠ text s := fun heq => hnodup.1 (List.mem_map.2 ⟨_, hrest, heq.symm⟩)
      cases key with
      | text t => rw [field?, if_neg fun heq => hne (congrArg _ heq), ih hnodup.2 hrest]
      | _ => exact ih hnodup.2 hrest

end Yaml.Value

/--
Whether a value has a shape, and so has everything in it: each key of a mapping is the spelling under which a field of
its model is read, and what is read there has the shape of the field.
-/
inductive Shape.Fits : Shape → Value → Prop
  | scalar {value : Value} (h : value.IsScalar) : Fits .scalar value
  | null : Fits (.list .scalar) .null
  | list {shape : Shape} {value : Value} {items : List Value} (hitems : Field.items? value = some items)
    (h : ∀ item ∈ items, Fits shape item) : Fits (.list shape) value
  | node {label : Option Nat} {entries : Entries} {kind : NodeKind} (hkind : Node.discriminate entries = .ok kind)
    (h : Fits (.model (.node kind)) (.mapping label entries)) : Fits .node (.mapping label entries)
  | model {m : Model} {label : Option Nat} {entries : Entries}
    (hkeys : ∀ e ∈ entries, ∃ key ∈ m.keys, ∃ s, e.1 = .text s ∧ key.Spells s ∧ key.used? entries = some s)
    (hvalues : ∀ key ∈ m.keys, ∀ s value, key.find? entries = some (s, value) → Fits key.shape value) :
    Fits (.model m) (.mapping label entries)

open Shape (Fits)

theorem Shape.Fits.model_of_mapping {shape : Shape} {label : Option Nat} {entries : Entries}
    (h : Fits shape (.mapping label entries)) : ∃ m, Fits (.model m) (.mapping label entries) := by
  cases h with
  | scalar h => cases h
  | list hitems => cases hitems
  | node _ h => exact ⟨_, h⟩
  | model hkeys hvalues => exact ⟨_, .model hkeys hvalues⟩

theorem Shape.Fits.items {shape : Shape} {value : Value} {items : List Value} (h : Fits shape value)
    (hitems : Field.items? value = some items) : ∀ item ∈ items, ∃ shape, Fits shape item := by
  cases h with
  | scalar h =>
    cases value with
    | sequence | pair | set | mapping => cases h
    | _ => cases hitems
  | null | node | model => cases hitems
  | list hitems' h =>
    rw [hitems] at hitems'
    cases hitems'
    exact fun item hitem => ⟨_, h item hitem⟩

theorem Shape.Fits.model_of_within {shape : Shape} {value : Value} {label : Option Nat} {entries : Entries}
    (h : Fits shape value) (hkeyed : value.Keyed) (hwithin : Value.Within (.mapping label entries) value) :
    ∃ m, Fits (.model m) (.mapping label entries) := by
  induction hwithin generalizing shape with
  | self => exact h.model_of_mapping
  | item hitems hitem _ ih =>
    obtain ⟨shape, hfits⟩ := h.items hitems _ hitem
    exact ih hfits fun _ _ hwithin => hkeyed _ _ (.item hitems hitem hwithin)
  | @entry label' entries' e he _ ih =>
    obtain ⟨m, hmodel⟩ := h.model_of_mapping
    cases hmodel with
    | model hkeys hvalues =>
      obtain ⟨key, hkey, s, htext, _, hused⟩ := hkeys e he
      have hfield := Value.field?_of_mem (hkeyed _ _ .self) (show (.text s, e.2) ∈ entries' from htext ▸ he)
      have hfits := hvalues key hkey s e.2 (Key.find?_eq_some_iff.2 ⟨hused, hfield⟩)
      exact ih hfits fun _ _ hwithin => hkeyed _ _ (.entry he hwithin)

def Takes (entries : Entries) (key : Key) : Prop :=
  ∀ s value, key.find? entries = some (s, value) → Fits key.shape value

theorem Shape.fits_of_closed {m : Model} {entries : Entries} (hclosed : Closed m.keys entries)
    (hvalues : ∀ key ∈ m.keys, Takes entries key) (label : Option Nat) : Fits (.model m) (.mapping label entries) := by
  refine .model (fun e he => ?_) hvalues
  obtain ⟨s, htext, _, key, hkey, hused⟩ := hclosed e he
  exact ⟨key, hkey, s, htext, Key.spells_of_used? hused, hused⟩

namespace Checked

variable {α : Type} {read : Value → Checked α} {shape : Shape} {key : Key} {entries : Entries} {a : α}

def Asks (read : Value → Checked α) (shape : Shape) : Prop :=
  ∀ value a, read value = .good a → Fits shape value

theorem Asks.required (h : Asks read key.shape) (hread : required key read entries = .good a) : Takes entries key := by
  obtain ⟨s, value, hfound, hvalue⟩ := required_eq_good.1 hread
  intro s' value' hfound'
  rw [hfound] at hfound'
  cases hfound'
  exact h value a hvalue

theorem Asks.withDefault {default : α} (h : Asks read key.shape)
    (hread : withDefault key default read entries = .good a) : Takes entries key := by
  intro s value hfound
  rcases withDefault_eq_good.1 hread with ⟨s', value', hfound', hvalue⟩ | ⟨hnone, _⟩
  · rw [hfound] at hfound'
    cases hfound'
    exact h value a hvalue
  · rw [hfound] at hnone
    cases hnone

theorem Asks.optional (h : Asks read shape) (hnull : Fits shape .null) : Asks (Field.optional read) shape := by
  intro value a hread
  unfold Field.optional at hread
  split at hread
  · exact hnull
  · obtain ⟨a, ha, _⟩ := map_eq_good.1 hread
    exact h value a ha

theorem Asks.maybe (h : Asks read .scalar) (hscalar : key.shape = .scalar) {found : Option α}
    (hread : Record.optional key read entries = .good found) : Takes entries key := by
  rw [← hscalar] at h
  refine (h.optional ?_).withDefault hread
  rw [hscalar]
  exact .scalar trivial

theorem Asks.list (h : Asks read shape) : Asks (Field.list read) (.list shape) := by
  intro value results hread
  obtain ⟨items, hitems, hresults⟩ := Field.list_eq_good.1 hread
  refine .list hitems fun item hitem => ?_
  obtain ⟨a, _, ha⟩ := exists_of_mem_of_forall₂ hresults hitem
  exact h item a ha

end Checked

namespace Field

theorem text_asks : Asks text .scalar := by
  intro value s h
  cases value with
  | sequence | pair | set | mapping => cases h
  | _ => exact .scalar trivial

theorem identifier_asks : Asks identifier .scalar := by
  intro value s h
  obtain ⟨s, hs, _⟩ := andThen_eq_good.1 (whenGood_eq_good.1 h).1
  exact text_asks value s hs

theorem anyText_asks : Asks anyText .scalar := by
  intro value s h
  cases value with
  | sequence | pair | set | mapping => cases h
  | _ => exact .scalar trivial

theorem truth_asks : Asks truth .scalar := by
  intro value b h
  cases value with
  | sequence | pair | set | mapping => cases h
  | _ => exact .scalar trivial

theorem whole_asks : Asks whole .scalar := by
  intro value n h
  cases value with
  | sequence | pair | set | mapping => cases h
  | _ => exact .scalar trivial

theorem count_asks : Asks count .scalar := by
  intro value n h
  obtain ⟨n, hn, _⟩ := map_eq_good.1 h
  exact whole_asks value n (whenGood_eq_good.1 hn).1

theorem positive_asks : Asks positive .scalar := by
  intro value n h
  obtain ⟨n, hn, _⟩ := map_eq_good.1 h
  exact whole_asks value n (whenGood_eq_good.1 hn).1

theorem choice_asks {α : Type} (words : List (String × α)) : Asks (choice words) .scalar := by
  intro value a h
  cases value with
  | sequence | pair | set | mapping => cases h
  | _ => exact .scalar trivial

end Field

theorem NodeKind.field_takes {kind : NodeKind} {entries : Entries} (h : kind.field entries = .good ()) :
    Takes entries "kind" :=
  (Field.choice_asks _).withDefault h

theorem takes_plainKeys {names : List String} {entries : Entries} :
    (∀ key ∈ plainKeys names, Takes entries key) ↔ ∀ name ∈ names, Takes entries ⟨name, none⟩ :=
  List.forall_mem_map

theorem Restrictions.fields_take {entries : Entries} {r : Restrictions} (h : fields entries = .good r) :
    ∀ key ∈ keys, Takes entries key := by
  obtain ⟨henums, hrange, hlength, hpattern, hpath⟩ := fields_eq_good.1 h
  unfold keys
  simp only [takes_plainKeys, List.forall_mem_cons]
  exact ⟨(Field.anyText_asks.list.optional .null).withDefault henums, Field.anyText_asks.maybe rfl hrange,
    Field.anyText_asks.maybe rfl hlength, Field.text_asks.maybe rfl hpattern, Field.text_asks.maybe rfl hpath,
    List.forall_mem_nil _⟩

theorem Typedef.read_asks : Asks read (.model .typedef) := by
  intro value t h
  obtain ⟨label, entries, rfl, hclosed, hfields⟩ := read_eq_good.1 h
  obtain ⟨hrestrictions, hname, htype, hdescription, hdefault, hunits⟩ := fields_eq_good.1 hfields
  refine Shape.fits_of_closed (m := .typedef) hclosed ?_ label
  unfold Model.keys keys
  simp only [List.forall_mem_append, takes_plainKeys, List.forall_mem_cons]
  exact ⟨Restrictions.fields_take hrestrictions, Field.identifier_asks.required hname, Field.text_asks.required htype,
    Field.text_asks.maybe rfl hdescription, Field.anyText_asks.maybe rfl hdefault, Field.anyText_asks.maybe rfl hunits,
    List.forall_mem_nil _⟩

theorem Import.read_asks : Asks read (.model .imported) := by
  intro value i h
  obtain ⟨label, entries, rfl, hclosed, hmodule, hbound⟩ := read_eq_good.1 h
  refine Shape.fits_of_closed (m := .imported) hclosed ?_ label
  unfold Model.keys
  simp only [takes_plainKeys, List.forall_mem_cons]
  exact ⟨Field.identifier_asks.required hmodule, Field.identifier_asks.required hbound, List.forall_mem_nil _⟩

namespace Node

theorem takes_of_readsUnder {name : String} {entries : Entries} {items : List Value}
    (hshape : Key.shape ⟨name, none⟩ = .list (.ofKnown (knownUnder (some name))))
    (hitems : itemsUnder? (some name) entries = some items)
    (h : ∀ item ∈ items, Fits (.ofKnown (knownUnder (some name))) item) : Takes entries ⟨name, none⟩ := by
  intro s value hfound
  obtain ⟨hused, hvalue⟩ := Key.find?_eq_some_iff.1 hfound
  obtain rfl | ⟨⟨⟩⟩ := Key.spells_of_used? hused
  unfold itemsUnder? at hitems
  rw [Option.bind_some, hvalue] at hitems
  rw [hshape]
  exact .list hitems h

theorem takes_of_forms {kind : NodeKind} {entries : Entries} {items : List Value} {nodes : List Node} {node : Node}
    (hforms : Forms entries nodes kind node) (hitems : itemsUnder? (childrenKey kind) entries = some items)
    (hinside : ∀ item ∈ items, Fits (.ofKnown (knownUnder (childrenKey kind))) item) :
    ∀ key ∈ kind.keys, Takes entries key := by
  cases hforms with
  | container h =>
    obtain ⟨hkind, hname, hdescription, hconfig, hpresence⟩ := Container.fields_eq_good.1 h
    unfold NodeKind.keys
    simp only [takes_plainKeys, List.forall_mem_cons]
    exact ⟨NodeKind.field_takes hkind, Field.identifier_asks.required hname, Field.text_asks.maybe rfl hdescription,
      Field.truth_asks.maybe rfl hconfig, Field.text_asks.maybe rfl hpresence, takes_of_readsUnder rfl hitems hinside,
      List.forall_mem_nil _⟩
  | list h =>
    obtain ⟨hkind, hname, hdescription, hconfig, hkey, hleast, hgreatest, horder⟩ := KeyedList.fields_eq_good.1 h
    unfold NodeKind.keys boundKeys
    simp only [List.forall_mem_append, takes_plainKeys, List.forall_mem_cons]
    exact ⟨⟨NodeKind.field_takes hkind, Field.identifier_asks.required hname, Field.text_asks.maybe rfl hdescription,
        Field.truth_asks.maybe rfl hconfig, Field.text_asks.maybe rfl hkey, takes_of_readsUnder rfl hitems hinside,
        List.forall_mem_nil _⟩,
      Field.count_asks.maybe rfl hleast, Field.positive_asks.maybe rfl hgreatest,
      (Field.choice_asks _).withDefault horder, List.forall_mem_nil _⟩
  | leaf h =>
    obtain ⟨hrestrictions, hkind, hname, htype, hdescription, hconfig, hmandatory, hdefault, hunits⟩ :=
      Leaf.fields_eq_good.1 h
    unfold NodeKind.keys
    simp only [List.forall_mem_append, takes_plainKeys, List.forall_mem_cons]
    exact ⟨Restrictions.fields_take hrestrictions, NodeKind.field_takes hkind, Field.identifier_asks.required hname,
      Field.text_asks.required htype, Field.text_asks.maybe rfl hdescription, Field.truth_asks.maybe rfl hconfig,
      Field.truth_asks.withDefault hmandatory, Field.anyText_asks.maybe rfl hdefault,
      Field.anyText_asks.maybe rfl hunits, List.forall_mem_nil _⟩
  | leafList h =>
    obtain ⟨hrestrictions, hkind, hname, htype, hdescription, hconfig, hleast, hgreatest, horder, hunits⟩ :=
      LeafList.fields_eq_good.1 h
    unfold NodeKind.keys boundKeys
    simp only [List.forall_mem_append, takes_plainKeys, List.forall_mem_cons]
    exact ⟨⟨Restrictions.fields_take hrestrictions, NodeKind.field_takes hkind, Field.identifier_asks.required hname,
        Field.text_asks.required htype, Field.text_asks.maybe rfl hdescription, Field.truth_asks.maybe rfl hconfig,
        Field.anyText_asks.maybe rfl hunits, List.forall_mem_nil _⟩,
      Field.count_asks.maybe rfl hleast, Field.positive_asks.maybe rfl hgreatest,
      (Field.choice_asks _).withDefault horder, List.forall_mem_nil _⟩
  | choice h =>
    obtain ⟨hkind, hname, hdescription, hconfig, hmandatory, hdefault⟩ := Choice.fields_eq_good.1 h
    unfold NodeKind.keys
    simp only [takes_plainKeys, List.forall_mem_cons]
    exact ⟨NodeKind.field_takes hkind, Field.identifier_asks.required hname, Field.text_asks.maybe rfl hdescription,
      Field.truth_asks.maybe rfl hconfig, Field.truth_asks.withDefault hmandatory, Field.text_asks.maybe rfl hdefault,
      takes_of_readsUnder rfl hitems hinside, List.forall_mem_nil _⟩
  | case h =>
    obtain ⟨hkind, hname, hdescription⟩ := Case.fields_eq_good.1 h
    unfold NodeKind.keys
    simp only [takes_plainKeys, List.forall_mem_cons]
    exact ⟨NodeKind.field_takes hkind, Field.identifier_asks.required hname, Field.text_asks.maybe rfl hdescription,
      takes_of_readsUnder rfl hitems hinside, List.forall_mem_nil _⟩
  | uses h =>
    obtain ⟨hkind, hgrouping, hdescription⟩ := Uses.fields_eq_good.1 h
    unfold NodeKind.keys
    simp only [takes_plainKeys, List.forall_mem_cons]
    exact ⟨NodeKind.field_takes hkind, Field.text_asks.required hgrouping, Field.text_asks.maybe rfl hdescription,
      List.forall_mem_nil _⟩

theorem fits_of_reads {known : Option NodeKind} {value : Value} {node : Node} (h : Reads known value node) :
    Fits (.ofKnown known) value := by
  induction h with
  | @mk known kind label entries items nodes node hkind hitems hlength _ hclosed hforms ih =>
    have hinside : ∀ item ∈ items, Fits (.ofKnown (knownUnder (childrenKey kind))) item := by
      intro item hitem
      have hpairs : List.Forall₂ (fun item _ => Fits (.ofKnown (knownUnder (childrenKey kind))) item) items nodes :=
        List.forall₂_iff_zip.2 ⟨hlength, fun hp => ih _ hp⟩
      obtain ⟨_, _, hfits⟩ := exists_of_mem_of_forall₂ hpairs hitem
      exact hfits
    have hmodel : Fits (.model (.node kind)) (.mapping label entries) := by
      exact Shape.fits_of_closed (m := .node kind) hclosed (takes_of_forms hforms hitems hinside) label
    rcases hkind with rfl | ⟨rfl, hkind⟩
    · exact hmodel
    · exact .node hkind hmodel

theorem takes_of_readBody {entries : Entries} {nodes : List Node} (h : readBody entries = .good nodes) :
    Takes entries "nodes" := by
  obtain ⟨items, hitems, hreads⟩ := reads_of_readChildren h
  refine takes_of_readsUnder rfl hitems fun item hitem => ?_
  obtain ⟨node, _, hnode⟩ := exists_of_mem_of_forall₂ hreads hitem
  exact fits_of_reads hnode

end Node

theorem Grouping.read_asks : Asks read (.model .grouping) := by
  intro value g h
  obtain ⟨label, entries, rfl, hclosed, hname, hdescription, hnodes⟩ := read_eq_good.1 h
  refine Shape.fits_of_closed (m := .grouping) hclosed ?_ label
  unfold Model.keys
  simp only [takes_plainKeys, List.forall_mem_cons]
  exact ⟨Field.identifier_asks.required hname, Field.text_asks.maybe rfl hdescription, Node.takes_of_readBody hnodes,
    List.forall_mem_nil _⟩

theorem Augment.read_asks : Asks read (.model .augment) := by
  intro value a h
  obtain ⟨⟨label, entries, rfl, hclosed, htarget, hdescription, hnodes⟩, _⟩ := read_eq_good.1 h
  refine Shape.fits_of_closed (m := .augment) hclosed ?_ label
  unfold Model.keys
  simp only [takes_plainKeys, List.forall_mem_cons]
  exact ⟨Field.text_asks.required htarget, Field.text_asks.maybe rfl hdescription, Node.takes_of_readBody hnodes,
    List.forall_mem_nil _⟩

theorem Body.fields_take {entries : Entries} {body : Body} (h : fields entries = .good body) :
    ∀ key ∈ keys, Takes entries key := by
  obtain ⟨hbound, horganization, hcontact, hdescription, hrevision, himports, hincludes, htypedefs, hgroupings, hnodes,
    haugments, _⟩ := fields_eq_good.1 h
  unfold keys
  simp only [takes_plainKeys, List.forall_mem_cons]
  exact ⟨Field.identifier_asks.required hbound, Field.text_asks.maybe rfl horganization,
    Field.text_asks.maybe rfl hcontact, Field.text_asks.maybe rfl hdescription, Field.anyText_asks.maybe rfl hrevision,
    Import.read_asks.list.withDefault himports, Field.identifier_asks.list.withDefault hincludes,
    Typedef.read_asks.list.withDefault htypedefs, Grouping.read_asks.list.withDefault hgroupings,
    Node.takes_of_readBody hnodes, Augment.read_asks.list.withDefault haugments, List.forall_mem_nil _⟩

theorem Module.read_asks : Asks read (.model .main) := by
  intro value m h
  obtain ⟨label, entries, rfl, hclosed, hbody, hname, huri⟩ := read_eq_good.1 h
  refine Shape.fits_of_closed (m := .main) hclosed ?_ label
  unfold Model.keys
  simp only [List.forall_mem_append, List.forall_mem_cons]
  exact ⟨Body.fields_take hbody, Field.identifier_asks.required hname, Field.text_asks.required huri,
    List.forall_mem_nil _⟩

theorem Submodule.read_asks : Asks read (.model .part) := by
  intro value s h
  obtain ⟨label, entries, rfl, hclosed, hbody, hname, howner⟩ := read_eq_good.1 h
  refine Shape.fits_of_closed (m := .part) hclosed ?_ label
  unfold Model.keys
  simp only [List.forall_mem_append, List.forall_mem_cons]
  exact ⟨Body.fields_take hbody, Field.identifier_asks.required hname, Field.identifier_asks.required howner,
    List.forall_mem_nil _⟩

end Yang

import Mathlib.Data.List.Forall2
import Yang.Proofs.Schema.Ensured

/-!
This module contains what a reading without issues tells about a mapping: how its keys are spelled, and what every field
was read as.
-/

namespace Yang

open Yang.Yaml (Value)

namespace Checked

variable {α β : Type}

theorem map_eq_good {f : α → β} {r : Checked α} {b : β} : f <$> r = .good b ↔ ∃ a, r = .good a ∧ f a = b := by
  change r.map f = _ ↔ _
  cases r <;> simp [map]

theorem seq_eq_good {f : Checked (α → β)} {r : Checked α} {b : β} :
    f <*> r = .good b ↔ ∃ g a, f = .good g ∧ r = .good a ∧ g a = b :=
  ap_eq_good

theorem map_seq_eq_good {γ : Type} {f : α → β → γ} {r : Checked α} {r' : Checked β} {c : γ} :
    f <$> r <*> r' = .good c ↔ ∃ a b, r = .good a ∧ r' = .good b ∧ f a b = c := by
  rw [seq_eq_good]
  constructor
  · rintro ⟨_, b, hf, hb, rfl⟩
    obtain ⟨a, ha, rfl⟩ := map_eq_good.1 hf
    exact ⟨a, b, ha, hb, rfl⟩
  · rintro ⟨a, b, ha, hb, rfl⟩
    exact ⟨_, b, map_eq_good.2 ⟨a, ha, rfl⟩, hb, rfl⟩

theorem whenGood_eq_good {r : Checked α} {check : α → Option Complaint} {a : α} :
    r.whenGood check = .good a ↔ r = .good a ∧ check a = none := by
  cases r with
  | bad issues =>
    constructor
    · intro h
      cases h
    · rintro ⟨h, _⟩
      cases h
  | good b =>
    unfold whenGood
    dsimp only
    split
    · next hnone =>
      rw [good.injEq]
      exact ⟨fun h => ⟨h, h ▸ hnone⟩, And.left⟩
    · next complaint hsome =>
      constructor
      · intro h
        cases h
      · rintro ⟨⟨⟩, hnone⟩
        rw [hnone] at hsome
        cases hsome

theorem andAlso_eq_good {r : Checked α} {more : List Issue} {a : α} :
    r.andAlso more = .good a ↔ r = .good a ∧ more = [] := by
  unfold andAlso
  split <;> simp_all

theorem andThen_eq_good {r : Checked α} {f : α → Checked β} {b : β} :
    r.andThen f = .good b ↔ ∃ a, r = .good a ∧ f a = .good b := by
  cases r <;> simp [andThen]

end Checked

open Checked

namespace Key

def Spells (key : Key) (s : String) : Prop :=
  s = key.spelled ∨ key.alternative = some s

theorem spells_of_used? {key : Key} {entries : Entries} {s : String} (h : key.used? entries = some s) :
    key.Spells s := by
  have hmem := List.mem_of_find?_eq_some h
  rw [List.mem_cons, Option.mem_toList] at hmem
  exact hmem

theorem find?_eq_some_iff {key : Key} {entries : Entries} {s : String} {value : Value} :
    key.find? entries = some (s, value) ↔ key.used? entries = some s ∧ Value.field? s entries = some value := by
  unfold find?
  rw [Option.bind_eq_some_iff]
  constructor
  · rintro ⟨_, hused, hfound⟩
    obtain ⟨_, hvalue, heq⟩ := Option.map_eq_some_iff.1 hfound
    cases heq
    exact ⟨hused, hvalue⟩
  · rintro ⟨hused, hvalue⟩
    refine ⟨s, hused, ?_⟩
    rw [hvalue]
    rfl

theorem find?_of_field? {key : Key} {entries : Entries} {value : Value}
    (h : Value.field? key.spelled entries = some value) : key.find? entries = some (key.spelled, value) := by
  rw [find?_eq_some_iff]
  refine ⟨?_, h⟩
  unfold used?
  rw [List.find?_cons_of_pos (by rw [h]; rfl)]

end Key

namespace Record

variable {α : Type} {key : Key} {read : Value → Checked α} {entries : Entries} {keys : List Key}

def Closed (keys : List Key) (entries : Entries) : Prop :=
  ∀ e ∈ entries, ∃ s, e.1 = .text s ∧ Text.isBroken s = false ∧ ∃ key ∈ keys, key.used? entries = some s

theorem keyIssues_eq_nil_iff :
    keyIssues keys entries = [] ↔ ∀ e ∈ entries, ∃ s, e.1 = .text s ∧ ∃ key ∈ keys, key.used? entries = some s := by
  unfold keyIssues
  dsimp only
  rw [List.filterMap_eq_nil_iff]
  constructor
  · rintro h ⟨key, value⟩ he
    have hnone := h _ he
    dsimp only at hnone
    split at hnone
    · next s =>
      split at hnone
      · next hused =>
        rw [List.contains_iff_mem, List.mem_filterMap] at hused
        exact ⟨s, rfl, hused⟩
      · cases hnone
    · cases hnone
  · rintro h ⟨key, value⟩ he
    obtain ⟨s, rfl, hused⟩ := h _ he
    dsimp only
    rw [if_pos]
    rw [List.contains_iff_mem, List.mem_filterMap]
    exact hused

theorem closed_eq_good {reading : Checked α} {a : α} :
    closed keys entries reading = .good a ↔ Closed keys entries ∧ reading = .good a := by
  unfold closed
  split
  · next hbroken =>
    obtain ⟨⟨key, value⟩, he, hkey⟩ := List.any_eq_true.1 hbroken
    constructor
    · intro h
      cases h
    · rintro ⟨hclosed, _⟩
      obtain ⟨s, rfl, hwhole, _⟩ := hclosed _ he
      exact absurd hkey (ne_true_of_eq_false hwhole)
  · next hwhole =>
    rw [List.any_eq_true, not_exists] at hwhole
    rw [andAlso_eq_good, keyIssues_eq_nil_iff, and_comm]
    apply and_congr_left'
    constructor
    · rintro hused ⟨key, value⟩ he
      obtain ⟨s, rfl, hkey⟩ := hused _ he
      exact ⟨s, rfl, eq_false_of_ne_true fun hbroken => hwhole _ ⟨he, hbroken⟩, hkey⟩
    · rintro hclosed e he
      obtain ⟨s, htext, _, hused⟩ := hclosed e he
      exact ⟨s, htext, hused⟩

theorem read_eq_good {model : String} {fields : Entries → Checked α} {value : Value} {a : α} :
    Record.read model keys fields value = .good a
      ↔ ∃ label entries, value = .mapping label entries ∧ Closed keys entries ∧ fields entries = .good a := by
  unfold Record.read
  split
  · next label entries =>
    rw [closed_eq_good]
    constructor
    · exact fun h => ⟨label, entries, rfl, h⟩
    · rintro ⟨_, _, ⟨⟩, h⟩
      exact h
  · next hmapping =>
    constructor
    · intro h
      cases h
    · rintro ⟨label, entries, rfl, _⟩
      exact absurd rfl (hmapping label entries)

theorem read_eq_good_of {model : String} {fields : Entries → Checked α} {p : Entries → α → Prop}
    (hfields : ∀ entries a, fields entries = .good a ↔ p entries a) {value : Value} {a : α} :
    Record.read model keys fields value = .good a
      ↔ ∃ label entries, value = .mapping label entries ∧ Closed keys entries ∧ p entries a := by
  rw [read_eq_good]
  exact exists_congr fun _ => exists_congr fun _ => and_congr_right' (and_congr_right' (hfields _ _))

theorem required_eq_good {a : α} : required key read entries = .good a
    ↔ ∃ s value, key.find? entries = some (s, value) ∧ read value = .good a := by
  unfold required
  split
  · next s value hfound =>
    rw [under_eq_good, hfound]
    constructor
    · exact fun h => ⟨s, value, rfl, h⟩
    · rintro ⟨_, _, ⟨⟩, h⟩
      exact h
  · next hnone =>
    rw [hnone]
    constructor
    · intro h
      cases h
    · rintro ⟨_, _, ⟨⟩, _⟩

theorem withDefault_eq_good {a default : α} : withDefault key default read entries = .good a
    ↔ (∃ s value, key.find? entries = some (s, value) ∧ read value = .good a)
      ∨ key.find? entries = none ∧ a = default := by
  unfold withDefault
  split
  · next s value hfound =>
    rw [under_eq_good, hfound]
    constructor
    · exact fun h => .inl ⟨s, value, rfl, h⟩
    · rintro (⟨_, _, ⟨⟩, h⟩ | ⟨⟨⟩, _⟩)
      exact h
  · next hnone =>
    rw [hnone, good.injEq]
    constructor
    · exact fun h => .inr ⟨rfl, h.symm⟩
    · rintro (⟨_, _, ⟨⟩, _⟩ | ⟨_, h⟩)
      exact h.symm

end Record

open Record

theorem Field.listFrom_eq_good {α : Type} {read : Value → Checked α} {index : Nat} {items : List Value}
    {results : List α} :
    listFrom read index items = .good results ↔ List.Forall₂ (fun item a => read item = .good a) items results := by
  induction items generalizing index results with
  | nil =>
    rw [listFrom, good.injEq, List.forall₂_nil_left_iff]
    exact eq_comm
  | cons item rest ih =>
    rw [listFrom, seq_eq_good, List.forall₂_cons_left_iff]
    constructor
    · rintro ⟨_, more, hfirst, hmore, rfl⟩
      obtain ⟨a, ha, rfl⟩ := map_eq_good.1 hfirst
      exact ⟨a, more, under_eq_good.1 ha, ih.1 hmore, rfl⟩
    · rintro ⟨a, more, ha, hmore, rfl⟩
      exact ⟨_, more, map_eq_good.2 ⟨a, under_eq_good.2 ha, rfl⟩, ih.2 hmore, rfl⟩

theorem Field.list_eq_good {α : Type} {read : Value → Checked α} {value : Value} {results : List α} :
    list read value = .good results
      ↔ ∃ items, items? value = some items ∧ List.Forall₂ (fun item a => read item = .good a) items results := by
  unfold list
  split
  · next items hitems =>
    rw [listFrom_eq_good, hitems]
    constructor
    · exact fun h => ⟨items, rfl, h⟩
    · rintro ⟨_, ⟨⟩, h⟩
      exact h
  · next hnone =>
    rw [hnone]
    constructor
    · intro h
      cases h
    · rintro ⟨_, ⟨⟩, _⟩

theorem Restrictions.fields_eq_good {entries : Entries} {r : Restrictions} : fields entries = .good r
    ↔ optional "enums" (Field.list Field.anyText) entries = .good r.enums
      ∧ optional "range" Field.anyText entries = .good r.range
      ∧ optional "length" Field.anyText entries = .good r.length
      ∧ optional "pattern" Field.text entries = .good r.pattern
      ∧ optional "path" Field.text entries = .good r.path := by
  unfold fields
  constructor
  · revert r
    iterate 4 apply Ensures.seq
    apply Ensures.map
    intro _ henums _ hrange _ hlength _ hpattern _ hpath
    exact ⟨henums, hrange, hlength, hpattern, hpath⟩
  · rintro ⟨henums, hrange, hlength, hpattern, hpath⟩
    rw [henums, hrange, hlength, hpattern, hpath]
    rfl

theorem Typedef.fields_eq_good {entries : Entries} {t : Typedef} : fields entries = .good t
    ↔ Restrictions.fields entries = .good t.restrictions
      ∧ required "name" Field.identifier entries = .good t.name
      ∧ required "type" Field.text entries = .good t.type
      ∧ optional "description" Field.text entries = .good t.description
      ∧ optional "default" Field.anyText entries = .good t.default
      ∧ optional "units" Field.anyText entries = .good t.units := by
  unfold fields
  constructor
  · revert t
    iterate 5 apply Ensures.seq
    apply Ensures.map
    intro _ hrestrictions _ hname _ htype _ hdescription _ hdefault _ hunits
    exact ⟨hrestrictions, hname, htype, hdescription, hdefault, hunits⟩
  · rintro ⟨hrestrictions, hname, htype, hdescription, hdefault, hunits⟩
    rw [hrestrictions, hname, htype, hdescription, hdefault, hunits]
    rfl

theorem Container.fields_eq_good {entries : Entries} {head : Container} : fields entries = .good head
    ↔ NodeKind.container.field entries = .good ()
      ∧ required "name" Field.identifier entries = .good head.name
      ∧ optional "description" Field.text entries = .good head.description
      ∧ optional "config" Field.truth entries = .good head.config
      ∧ optional "presence" Field.text entries = .good head.presence := by
  unfold fields
  constructor
  · revert head
    iterate 4 apply Ensures.seq
    apply Ensures.map
    intro _ hkind _ hname _ hdescription _ hconfig _ hpresence
    exact ⟨hkind, hname, hdescription, hconfig, hpresence⟩
  · rintro ⟨hkind, hname, hdescription, hconfig, hpresence⟩
    rw [hkind, hname, hdescription, hconfig, hpresence]
    rfl

theorem KeyedList.fields_eq_good {entries : Entries} {head : KeyedList} : fields entries = .good head
    ↔ NodeKind.list.field entries = .good ()
      ∧ required "name" Field.identifier entries = .good head.name
      ∧ optional "description" Field.text entries = .good head.description
      ∧ optional "config" Field.truth entries = .good head.config
      ∧ optional "key" Field.text entries = .good head.key
      ∧ optional minElementsKey Field.count entries = .good head.minElements
      ∧ optional maxElementsKey Field.positive entries = .good head.maxElements
      ∧ withDefault orderedByKey .system Field.orderedBy entries = .good head.orderedBy := by
  unfold fields
  constructor
  · revert head
    iterate 7 apply Ensures.seq
    apply Ensures.map
    intro _ hkind _ hname _ hdescription _ hconfig _ hkey _ hleast _ hgreatest _ horder
    exact ⟨hkind, hname, hdescription, hconfig, hkey, hleast, hgreatest, horder⟩
  · rintro ⟨hkind, hname, hdescription, hconfig, hkey, hleast, hgreatest, horder⟩
    rw [hkind, hname, hdescription, hconfig, hkey, hleast, hgreatest, horder]
    rfl

theorem Leaf.fields_eq_good {entries : Entries} {head : Leaf} : fields entries = .good head
    ↔ Restrictions.fields entries = .good head.restrictions
      ∧ NodeKind.leaf.field entries = .good ()
      ∧ required "name" Field.identifier entries = .good head.name
      ∧ required "type" Field.text entries = .good head.type
      ∧ optional "description" Field.text entries = .good head.description
      ∧ optional "config" Field.truth entries = .good head.config
      ∧ withDefault "mandatory" false Field.truth entries = .good head.mandatory
      ∧ optional "default" Field.anyText entries = .good head.default
      ∧ optional "units" Field.anyText entries = .good head.units := by
  unfold fields
  constructor
  · revert head
    iterate 8 apply Ensures.seq
    apply Ensures.map
    intro _ hrestrictions _ hkind _ hname _ htype _ hdescription _ hconfig _ hmandatory _ hdefault _ hunits
    exact ⟨hrestrictions, hkind, hname, htype, hdescription, hconfig, hmandatory, hdefault, hunits⟩
  · rintro ⟨hrestrictions, hkind, hname, htype, hdescription, hconfig, hmandatory, hdefault, hunits⟩
    rw [hrestrictions, hkind, hname, htype, hdescription, hconfig, hmandatory, hdefault, hunits]
    rfl

theorem LeafList.fields_eq_good {entries : Entries} {head : LeafList} : fields entries = .good head
    ↔ Restrictions.fields entries = .good head.restrictions
      ∧ NodeKind.leafList.field entries = .good ()
      ∧ required "name" Field.identifier entries = .good head.name
      ∧ required "type" Field.text entries = .good head.type
      ∧ optional "description" Field.text entries = .good head.description
      ∧ optional "config" Field.truth entries = .good head.config
      ∧ optional minElementsKey Field.count entries = .good head.minElements
      ∧ optional maxElementsKey Field.positive entries = .good head.maxElements
      ∧ withDefault orderedByKey .system Field.orderedBy entries = .good head.orderedBy
      ∧ optional "units" Field.anyText entries = .good head.units := by
  unfold fields
  constructor
  · revert head
    iterate 9 apply Ensures.seq
    apply Ensures.map
    intro _ hrestrictions _ hkind _ hname _ htype _ hdescription _ hconfig _ hleast _ hgreatest _ horder _ hunits
    exact ⟨hrestrictions, hkind, hname, htype, hdescription, hconfig, hleast, hgreatest, horder, hunits⟩
  · rintro ⟨hrestrictions, hkind, hname, htype, hdescription, hconfig, hleast, hgreatest, horder, hunits⟩
    rw [hrestrictions, hkind, hname, htype, hdescription, hconfig, hleast, hgreatest, horder, hunits]
    rfl

theorem Choice.fields_eq_good {entries : Entries} {head : Choice} : fields entries = .good head
    ↔ NodeKind.choice.field entries = .good ()
      ∧ required "name" Field.identifier entries = .good head.name
      ∧ optional "description" Field.text entries = .good head.description
      ∧ optional "config" Field.truth entries = .good head.config
      ∧ withDefault "mandatory" false Field.truth entries = .good head.mandatory
      ∧ optional "default" Field.text entries = .good head.default := by
  unfold fields
  constructor
  · revert head
    iterate 5 apply Ensures.seq
    apply Ensures.map
    intro _ hkind _ hname _ hdescription _ hconfig _ hmandatory _ hdefault
    exact ⟨hkind, hname, hdescription, hconfig, hmandatory, hdefault⟩
  · rintro ⟨hkind, hname, hdescription, hconfig, hmandatory, hdefault⟩
    rw [hkind, hname, hdescription, hconfig, hmandatory, hdefault]
    rfl

theorem Case.fields_eq_good {entries : Entries} {head : Case} : fields entries = .good head
    ↔ NodeKind.case.field entries = .good ()
      ∧ required "name" Field.identifier entries = .good head.name
      ∧ optional "description" Field.text entries = .good head.description := by
  unfold fields
  constructor
  · revert head
    iterate 2 apply Ensures.seq
    apply Ensures.map
    intro _ hkind _ hname _ hdescription
    exact ⟨hkind, hname, hdescription⟩
  · rintro ⟨hkind, hname, hdescription⟩
    rw [hkind, hname, hdescription]
    rfl

theorem Uses.fields_eq_good {entries : Entries} {head : Uses} : fields entries = .good head
    ↔ NodeKind.uses.field entries = .good ()
      ∧ required "grouping" Field.text entries = .good head.grouping
      ∧ optional "description" Field.text entries = .good head.description := by
  unfold fields
  constructor
  · revert head
    iterate 2 apply Ensures.seq
    apply Ensures.map
    intro _ hkind _ hgrouping _ hdescription
    exact ⟨hkind, hgrouping, hdescription⟩
  · rintro ⟨hkind, hgrouping, hdescription⟩
    rw [hkind, hgrouping, hdescription]
    rfl

theorem Body.fields_eq_good {entries : Entries} {body : Body} : fields entries = .good body
    ↔ required "prefix" Field.identifier entries = .good body.prefixId
      ∧ optional "organization" Field.text entries = .good body.organization
      ∧ optional "contact" Field.text entries = .good body.contact
      ∧ optional "description" Field.text entries = .good body.description
      ∧ optional "revision" Field.anyText entries = .good body.revision
      ∧ Record.list "imports" Import.read entries = .good body.imports
      ∧ Record.list "includes" Field.identifier entries = .good body.includes
      ∧ Record.list "typedefs" Typedef.read entries = .good body.typedefs
      ∧ Record.list "groupings" Grouping.read entries = .good body.groupings
      ∧ Node.readBody entries = .good body.nodes
      ∧ Record.list "augments" Augment.read entries = .good body.augments
      ∧ body.source = "" := by
  unfold fields
  constructor
  · revert body
    iterate 10 apply Ensures.seq
    apply Ensures.map
    intro _ hbound _ horganization _ hcontact _ hdescription _ hrevision _ himports _ hincludes _ htypedefs _ hgroupings
      _ hnodes _ haugments
    exact ⟨hbound, horganization, hcontact, hdescription, hrevision, himports, hincludes, htypedefs, hgroupings, hnodes,
      haugments, rfl⟩
  · obtain ⟨_, _, _, _, _, _, _, _, _, _, _, source⟩ := body
    rintro ⟨hbound, horganization, hcontact, hdescription, hrevision, himports, hincludes, htypedefs, hgroupings,
      hnodes, haugments, rfl⟩
    rw [hbound, horganization, hcontact, hdescription, hrevision, himports, hincludes, htypedefs, hgroupings, hnodes,
      haugments]
    rfl

theorem Import.read_eq_good {value : Value} {i : Import} : read value = .good i
    ↔ ∃ label entries, value = .mapping label entries ∧ Closed (plainKeys ["module", "prefix"]) entries
      ∧ required "module" Field.identifier entries = .good i.moduleName
      ∧ required "prefix" Field.identifier entries = .good i.prefixId := by
  unfold read
  apply read_eq_good_of
  intro entries i
  constructor
  · revert i
    apply Ensures.seq
    apply Ensures.map
    intro _ hmodule _ hbound
    exact ⟨hmodule, hbound⟩
  · rintro ⟨hmodule, hbound⟩
    rw [hmodule, hbound]
    rfl

theorem Grouping.read_eq_good {value : Value} {g : Grouping} : read value = .good g
    ↔ ∃ label entries, value = .mapping label entries ∧ Closed (plainKeys ["name", "description", "nodes"]) entries
      ∧ required "name" Field.identifier entries = .good g.name
      ∧ optional "description" Field.text entries = .good g.description
      ∧ Node.readBody entries = .good g.nodes := by
  unfold read
  apply read_eq_good_of
  intro entries g
  constructor
  · revert g
    iterate 2 apply Ensures.seq
    apply Ensures.map
    intro _ hname _ hdescription _ hnodes
    exact ⟨hname, hdescription, hnodes⟩
  · rintro ⟨hname, hdescription, hnodes⟩
    rw [hname, hdescription, hnodes]
    rfl

theorem Augment.read_eq_good {value : Value} {a : Augment} : read value = .good a
    ↔ (∃ label entries, value = .mapping label entries ∧ Closed (plainKeys ["target", "description", "nodes"]) entries
      ∧ required "target" Field.text entries = .good a.target
      ∧ optional "description" Field.text entries = .good a.description
      ∧ Node.readBody entries = .good a.nodes) ∧ a.misplaced? = none := by
  unfold read
  rw [whenGood_eq_good]
  apply and_congr_left'
  apply read_eq_good_of
  intro entries a
  constructor
  · revert a
    iterate 2 apply Ensures.seq
    apply Ensures.map
    intro _ htarget _ hdescription _ hnodes
    exact ⟨htarget, hdescription, hnodes⟩
  · rintro ⟨htarget, hdescription, hnodes⟩
    rw [htarget, hdescription, hnodes]
    rfl

theorem Module.read_eq_good {value : Value} {m : Module} : read value = .good m
    ↔ ∃ label entries, value = .mapping label entries ∧ Closed (Body.keys ++ [nameKey, "namespace"]) entries
      ∧ Body.fields entries = .good m.body
      ∧ required nameKey Field.identifier entries = .good m.name
      ∧ required "namespace" Field.text entries = .good m.uri := by
  unfold read
  apply read_eq_good_of
  intro entries m
  constructor
  · revert m
    iterate 2 apply Ensures.seq
    apply Ensures.map
    intro _ hbody _ hname _ huri
    exact ⟨hbody, hname, huri⟩
  · rintro ⟨hbody, hname, huri⟩
    rw [hbody, hname, huri]
    rfl

theorem Submodule.read_eq_good {value : Value} {s : Submodule} : read value = .good s
    ↔ ∃ label entries, value = .mapping label entries ∧ Closed (Body.keys ++ [nameKey, ownerKey]) entries
      ∧ Body.fields entries = .good s.body
      ∧ required nameKey Field.identifier entries = .good s.name
      ∧ required ownerKey Field.identifier entries = .good s.owner := by
  unfold read
  apply read_eq_good_of
  intro entries s
  constructor
  · revert s
    iterate 2 apply Ensures.seq
    apply Ensures.map
    intro _ hbody _ hname _ howner
    exact ⟨hbody, hname, howner⟩
  · rintro ⟨hbody, hname, howner⟩
    rw [hbody, hname, howner]
    rfl

end Yang

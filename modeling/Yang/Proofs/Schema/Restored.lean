import Yang.Proofs.Keyed
import Yang.Proofs.Schema.Reads
import Yang.Schema.Written

/-!
This module contains that what is read is read again from what is written of it. The readers of fields make the same of
what they made of a value, and every field that is written stands under a key of its own.
-/

namespace Yang

open Yang.Yaml (Value)
open Checked Record

namespace Written

variable {α : Type} (s name : String)

@[simp]
theorem field?_append (entries more : Entries) :
    Value.field? s (entries ++ more) = (Value.field? s entries).or (Value.field? s more) := by
  induction entries with
  | nil => rfl
  | cons e rest ih =>
    obtain ⟨key, value⟩ := e
    rw [List.cons_append]
    cases key with
    | text t =>
      rw [Value.field?, Value.field?]
      split
      · rfl
      · exact ih
    | _ => exact ih

@[simp]
theorem field?_field (value : Value) : Value.field? s (field name value) = if name = s then some value else none := by
  unfold field
  rw [Value.field?, Value.field?]

@[simp]
theorem field?_text (t : String) : Value.field? s (text name t) = if name = s then some (.text t) else none :=
  field?_field s name _

@[simp]
theorem field?_optional (write : α → Value) (found : Option α) :
    Value.field? s (optional name write found) = if name = s then found.map write else none := by
  cases found with
  | none => exact (ite_self none).symm
  | some a => exact field?_field s name _

@[simp]
theorem field?_optionalCount (found : Option Nat) :
    Value.field? s (optionalCount name found) = if name = s then found.map (fun n => .int n) else none :=
  field?_optional s name _ found

@[simp]
theorem field?_list (write : α → Value) (items : List α) :
    Value.field? s (list name write items) = if name = s then some (.sequence none (items.map write)) else none :=
  field?_field s name _

def Spelled (keys : List Key) (entries : Entries) : Prop :=
  ∀ e ∈ entries, ∃ spelled ∈ keys.map Key.spelled, e.1 = .text spelled

@[simp]
theorem spelled_append {keys : List Key} {entries more : Entries} :
    Spelled keys (entries ++ more) ↔ Spelled keys entries ∧ Spelled keys more :=
  List.forall_mem_append

variable {s name} {keys : List Key}

@[simp]
theorem spelled_field (h : name ∈ keys.map Key.spelled) (value : Value) : Spelled keys (field name value) :=
  List.forall_mem_singleton.2 ⟨name, h, rfl⟩

@[simp]
theorem spelled_text (h : name ∈ keys.map Key.spelled) (t : String) : Spelled keys (text name t) :=
  spelled_field h _

@[simp]
theorem spelled_optional (h : name ∈ keys.map Key.spelled) (write : α → Value) (found : Option α) :
    Spelled keys (optional name write found) := by
  cases found with
  | none => exact List.forall_mem_nil _
  | some a => exact spelled_field h _

@[simp]
theorem spelled_optionalCount (h : name ∈ keys.map Key.spelled) (found : Option Nat) :
    Spelled keys (optionalCount name found) :=
  spelled_optional h _ found

@[simp]
theorem spelled_list (h : name ∈ keys.map Key.spelled) (write : α → Value) (items : List α) :
    Spelled keys (list name write items) :=
  spelled_field h _

theorem isSome_field? {entries : Entries} {value : Value} (h : (.text s, value) ∈ entries) :
    (Value.field? s entries).isSome = true := by
  obtain ⟨before, after, rfl⟩ := List.append_of_mem h
  rw [field?_append, Value.field?, if_pos rfl, Option.isSome_or, Option.isSome_some, Bool.or_true]

theorem Spelled.closed {entries : Entries} (h : Spelled keys entries)
    (hwhole : ∀ key ∈ keys, Text.isBroken key.spelled = false) : Closed keys entries := by
  rintro ⟨key, value⟩ he
  obtain ⟨_, hspelled, rfl⟩ := h _ he
  obtain ⟨key, hkey, rfl⟩ := List.mem_map.1 hspelled
  refine ⟨_, rfl, hwhole key hkey, key, hkey, ?_⟩
  exact List.find?_cons_of_pos (isSome_field? he)

end Written

namespace Checked

variable {α : Type} {read : Value → Checked α} {write : α → Value} {key : Key} {entries written : Entries} {a : α}

def Stable (read : Value → Checked α) (write : α → Value) : Prop :=
  ∀ value a, read value = .good a → read (write a) = .good a

theorem Stable.required (h : Stable read write) (hread : required key read entries = .good a)
    (hfield : Value.field? key.spelled written = some (write a)) : required key read written = .good a := by
  obtain ⟨_, value, _, hvalue⟩ := required_eq_good.1 hread
  exact required_eq_good.2 ⟨_, _, Key.find?_of_field? hfield, h value a hvalue⟩

theorem Stable.withDefault (h : Stable read write) {default : α} (hdefault : read (write default) = .good default)
    (hread : withDefault key default read entries = .good a)
    (hfield : Value.field? key.spelled written = some (write a)) : withDefault key default read written = .good a := by
  refine withDefault_eq_good.2 (.inl ⟨_, _, Key.find?_of_field? hfield, ?_⟩)
  rcases withDefault_eq_good.1 hread with ⟨_, value, _, hvalue⟩ | ⟨_, rfl⟩
  · exact h value a hvalue
  · exact hdefault

theorem optional_of_ne (read : Value → Checked α) {value : Value} (h : value ≠ .null) :
    Field.optional read value = some <$> read value := by
  cases value with
  | null => exact absurd rfl h
  | _ => rfl

theorem Stable.maybe (h : Stable read write) (hnull : ∀ a, write a ≠ .null) {found : Option α}
    (hread : Record.optional key read entries = .good found)
    (hfield : Value.field? key.spelled written = found.map write)
    (halternative : ∀ s, key.alternative = some s → Value.field? s written = none) :
    Record.optional key read written = .good found := by
  cases found with
  | none =>
    refine withDefault_eq_good.2 (.inr ⟨?_, rfl⟩)
    have hused : key.used? written = none := by
      unfold Key.used?
      rw [List.find?_eq_none, List.forall_mem_cons]
      refine ⟨?_, fun s hs => ?_⟩
      · rw [hfield]
        nofun
      · rw [halternative s (Option.mem_toList.1 hs)]
        nofun
    unfold Key.find?
    rw [hused]
    rfl
  | some a =>
    refine withDefault_eq_good.2 (.inl ⟨_, _, Key.find?_of_field? hfield, ?_⟩)
    rw [optional_of_ne read (hnull a)]
    refine map_eq_good.2 ⟨a, ?_, rfl⟩
    rcases withDefault_eq_good.1 hread with ⟨_, value, _, hvalue⟩ | ⟨_, ⟨⟩⟩
    unfold Field.optional at hvalue
    split at hvalue
    · cases hvalue
    · obtain ⟨_, hvalue, ⟨⟩⟩ := map_eq_good.1 hvalue
      exact h _ a hvalue

theorem Stable.list (h : Stable read write) :
    Stable (Field.list read) (fun items => .sequence none (items.map write)) := by
  intro value results hread
  obtain ⟨items, _, hresults⟩ := Field.list_eq_good.1 hread
  refine Field.list_eq_good.2 ⟨_, rfl, ?_⟩
  rw [List.forall₂_map_left_iff, List.forall₂_same]
  intro a ha
  obtain ⟨item, _, hitem⟩ := exists_of_mem_of_forall₂ hresults.flip ha
  exact h item a hitem

end Checked

namespace Field

theorem text_stable : Stable text Value.text :=
  fun _ _ _ => rfl

theorem identifier_stable : Stable identifier Value.text := by
  intro value s h
  obtain ⟨hread, hname⟩ := whenGood_eq_good.1 h
  obtain ⟨s, _, hwhole⟩ := andThen_eq_good.1 hread
  refine whenGood_eq_good.2 ⟨andThen_eq_good.2 ⟨_, rfl, ?_⟩, hname⟩
  unfold unbroken at hwhole ⊢
  split at hwhole
  · cases hwhole
  · next hunbroken =>
    cases hwhole
    rw [if_neg hunbroken]

theorem anyText_stable : Stable anyText Value.text :=
  fun _ _ _ => rfl

theorem truth_stable : Stable truth Value.bool :=
  fun _ _ _ => rfl

theorem count_stable : Stable count (fun n => .int n) := by
  intro value n h
  refine map_eq_good.2 ⟨n, whenGood_eq_good.2 ⟨rfl, ?_⟩, rfl⟩
  rw [if_neg (by omega)]

theorem positive_stable : Stable positive (fun n => .int n) := by
  intro value n h
  obtain ⟨i, hi, rfl⟩ := map_eq_good.1 h
  have hpositive := (whenGood_eq_good.1 hi).2
  split at hpositive
  · cases hpositive
  · refine map_eq_good.2 ⟨_, whenGood_eq_good.2 ⟨rfl, ?_⟩, rfl⟩
    rw [if_neg (by omega)]

theorem orderedBy_stable : Stable orderedBy (fun order => .text order.word) := by
  intro value order _
  cases order <;> rfl

end Field

-- where a field stands is found by going through what is written
attribute [local simp] plainKeys Restrictions.keys Restrictions.written minElementsKey maxElementsKey orderedByKey
  NodeKind.word Node.childrenKey Node.headWritten Body.keys Body.written Module.nameKey Submodule.nameKey
  Submodule.ownerKey

theorem Restrictions.fields_stable {entries entries' : Entries} {r : Restrictions} (h : fields entries = .good r)
    (hwritten : ∀ s ∈ keys.map Key.spelled, Value.field? s entries' = Value.field? s r.written) :
    fields entries' = .good r := by
  obtain ⟨henums, hrange, hlength, hpattern, hpath⟩ := fields_eq_good.1 h
  simp only [keys, plainKeys, List.map_cons, List.map_nil, List.forall_mem_cons] at hwritten
  obtain ⟨henums', hrange', hlength', hpattern', hpath', _⟩ := hwritten
  exact fields_eq_good.2 ⟨Field.anyText_stable.list.maybe nofun henums (henums'.trans (by simp)) nofun,
    Field.anyText_stable.maybe nofun hrange (hrange'.trans (by simp)) nofun,
    Field.anyText_stable.maybe nofun hlength (hlength'.trans (by simp)) nofun,
    Field.text_stable.maybe nofun hpattern (hpattern'.trans (by simp)) nofun,
    Field.text_stable.maybe nofun hpath (hpath'.trans (by simp)) nofun⟩

theorem Typedef.read_stable : Stable read toValue := by
  intro value t h
  obtain ⟨_, entries, rfl, _, hfields⟩ := read_eq_good.1 h
  obtain ⟨hrestrictions, hname, htype, hdescription, hdefault, hunits⟩ := fields_eq_good.1 hfields
  refine read_eq_good.2 ⟨none, _, rfl, Written.Spelled.closed ?_ (by decide), fields_eq_good.2 ⟨?_, ?_, ?_, ?_, ?_, ?_⟩⟩
  · simp (disch := decide)
  · exact Restrictions.fields_stable hrestrictions (by simp)
  · exact Field.identifier_stable.required hname (by simp)
  · exact Field.text_stable.required htype (by simp)
  · exact Field.text_stable.maybe nofun hdescription (by simp) nofun
  · exact Field.anyText_stable.maybe nofun hdefault (by simp) nofun
  · exact Field.anyText_stable.maybe nofun hunits (by simp) nofun

theorem Import.read_stable : Stable read toValue := by
  intro value i h
  obtain ⟨_, entries, rfl, _, hmodule, hbound⟩ := read_eq_good.1 h
  refine read_eq_good.2 ⟨none, _, rfl, Written.Spelled.closed ?_ (by decide), ?_, ?_⟩
  · simp (disch := decide)
  · exact Field.identifier_stable.required hmodule (by simp)
  · exact Field.identifier_stable.required hbound (by simp)

theorem NodeKind.field_of_field? {kind : NodeKind} {entries : Entries}
    (h : Value.field? "kind" entries = some (.text kind.word)) : kind.field entries = .good () := by
  refine withDefault_eq_good.2 (.inl ⟨_, _, Key.find?_of_field? h, ?_⟩)
  cases kind <;> rfl

namespace Node

theorem discriminate_of_field? {kind : NodeKind} {entries : Entries}
    (h : Value.field? "kind" entries = some (.text kind.word)) : discriminate entries = .ok kind := by
  unfold discriminate
  rw [h]
  dsimp only
  rw [NodeKind.ofWord?_word]

theorem readChildren_of_field? {name : String} {entries : Entries} {label : Option Nat} {items : List Value}
    (trail : Trail) (h : Value.field? name entries = some (.sequence label items)) :
    readChildren trail (some name) entries = (readItems trail (knownUnder (some name)) 0 items).under name := by
  induction entries with
  | nil => cases h
  | cons e rest ih =>
    obtain ⟨key, value⟩ := e
    unfold readChildren
    cases key with
    | text found =>
      rw [Value.field?] at h
      dsimp only
      split at h
      · next heq =>
        cases h
        rw [if_pos heq]
        rfl
      · next hne =>
        rw [if_neg hne]
        exact ih h
    | _ => exact ih h

theorem readItems_toValues {trail : Trail} {known : Option NodeKind} {nodes : List Node}
    (h : ∀ node ∈ nodes, readWith trail known node.toValue = .good node) (index : Nat) :
    readItems trail known index (toValues nodes) = .good nodes := by
  induction nodes generalizing index with
  | nil => rfl
  | cons node rest ih =>
    rw [List.forall_mem_cons] at h
    rw [toValues, readItems, h.1, ih h.2]
    rfl

theorem Forms.written {entries : Entries} {nodes : List Node} {kind : NodeKind} {node : Node}
    (hforms : Forms entries nodes kind node) :
    ∃ written, node.toValue = .mapping none written ∧ Value.field? "kind" written = some (.text kind.word)
      ∧ (∀ name, childrenKey kind = some name → Value.field? name written = some (.sequence none (toValues nodes)))
      ∧ Closed kind.keys written ∧ Forms written nodes kind node := by
  cases hforms with
  | container h =>
    obtain ⟨_, hname, hdescription, hconfig, hpresence⟩ := Container.fields_eq_good.1 h
    refine ⟨_, rfl, by simp, by simp, Written.Spelled.closed (by simp (disch := decide)) (by decide),
      .container (Container.fields_eq_good.2 ⟨?_, ?_, ?_, ?_, ?_⟩)⟩
    · exact NodeKind.field_of_field? (by simp)
    · exact Field.identifier_stable.required hname (by simp)
    · exact Field.text_stable.maybe nofun hdescription (by simp) nofun
    · exact Field.truth_stable.maybe nofun hconfig (by simp) nofun
    · exact Field.text_stable.maybe nofun hpresence (by simp) nofun
  | list h hbounds =>
    obtain ⟨_, hname, hdescription, hconfig, hkey, hleast, hgreatest, horder⟩ := KeyedList.fields_eq_good.1 h
    refine ⟨_, rfl, by simp, by simp, Written.Spelled.closed (by simp (disch := decide)) (by decide),
      .list (KeyedList.fields_eq_good.2 ⟨?_, ?_, ?_, ?_, ?_, ?_, ?_, ?_⟩) hbounds⟩
    · exact NodeKind.field_of_field? (by simp)
    · exact Field.identifier_stable.required hname (by simp)
    · exact Field.text_stable.maybe nofun hdescription (by simp) nofun
    · exact Field.truth_stable.maybe nofun hconfig (by simp) nofun
    · exact Field.text_stable.maybe nofun hkey (by simp) nofun
    · exact Field.count_stable.maybe nofun hleast (by simp) (by simp)
    · exact Field.positive_stable.maybe nofun hgreatest (by simp) (by simp)
    · exact Field.orderedBy_stable.withDefault rfl horder (by simp)
  | leaf h =>
    obtain ⟨hrestrictions, _, hname, htype, hdescription, hconfig, hmandatory, hdefault, hunits⟩ :=
      Leaf.fields_eq_good.1 h
    refine ⟨_, rfl, by simp, by simp, Written.Spelled.closed (by simp (disch := decide)) (by decide),
      .leaf (Leaf.fields_eq_good.2 ⟨?_, ?_, ?_, ?_, ?_, ?_, ?_, ?_, ?_⟩)⟩
    · exact Restrictions.fields_stable hrestrictions (by simp)
    · exact NodeKind.field_of_field? (by simp)
    · exact Field.identifier_stable.required hname (by simp)
    · exact Field.text_stable.required htype (by simp)
    · exact Field.text_stable.maybe nofun hdescription (by simp) nofun
    · exact Field.truth_stable.maybe nofun hconfig (by simp) nofun
    · exact Field.truth_stable.withDefault rfl hmandatory (by simp)
    · exact Field.anyText_stable.maybe nofun hdefault (by simp) nofun
    · exact Field.anyText_stable.maybe nofun hunits (by simp) nofun
  | leafList h =>
    obtain ⟨hrestrictions, _, hname, htype, hdescription, hconfig, hleast, hgreatest, horder, hunits⟩ :=
      LeafList.fields_eq_good.1 h
    refine ⟨_, rfl, by simp, by simp, Written.Spelled.closed (by simp (disch := decide)) (by decide),
      .leafList (LeafList.fields_eq_good.2 ⟨?_, ?_, ?_, ?_, ?_, ?_, ?_, ?_, ?_, ?_⟩)⟩
    · exact Restrictions.fields_stable hrestrictions (by simp)
    · exact NodeKind.field_of_field? (by simp)
    · exact Field.identifier_stable.required hname (by simp)
    · exact Field.text_stable.required htype (by simp)
    · exact Field.text_stable.maybe nofun hdescription (by simp) nofun
    · exact Field.truth_stable.maybe nofun hconfig (by simp) nofun
    · exact Field.count_stable.maybe nofun hleast (by simp) (by simp)
    · exact Field.positive_stable.maybe nofun hgreatest (by simp) (by simp)
    · exact Field.orderedBy_stable.withDefault rfl horder (by simp)
    · exact Field.anyText_stable.maybe nofun hunits (by simp) nofun
  | choice h =>
    obtain ⟨_, hname, hdescription, hconfig, hmandatory, hdefault⟩ := Choice.fields_eq_good.1 h
    refine ⟨_, rfl, by simp, by simp, Written.Spelled.closed (by simp (disch := decide)) (by decide),
      .choice (Choice.fields_eq_good.2 ⟨?_, ?_, ?_, ?_, ?_, ?_⟩)⟩
    · exact NodeKind.field_of_field? (by simp)
    · exact Field.identifier_stable.required hname (by simp)
    · exact Field.text_stable.maybe nofun hdescription (by simp) nofun
    · exact Field.truth_stable.maybe nofun hconfig (by simp) nofun
    · exact Field.truth_stable.withDefault rfl hmandatory (by simp)
    · exact Field.text_stable.maybe nofun hdefault (by simp) nofun
  | case h =>
    obtain ⟨_, hname, hdescription⟩ := Case.fields_eq_good.1 h
    refine ⟨_, rfl, by simp, by simp, Written.Spelled.closed (by simp (disch := decide)) (by decide),
      .case (Case.fields_eq_good.2 ⟨?_, ?_, ?_⟩)⟩
    · exact NodeKind.field_of_field? (by simp)
    · exact Field.identifier_stable.required hname (by simp)
    · exact Field.text_stable.maybe nofun hdescription (by simp) nofun
  | uses h =>
    obtain ⟨_, hgrouping, hdescription⟩ := Uses.fields_eq_good.1 h
    refine ⟨_, rfl, by simp, by simp, Written.Spelled.closed (by simp (disch := decide)) (by decide),
      .uses (Uses.fields_eq_good.2 ⟨?_, ?_, ?_⟩)⟩
    · exact NodeKind.field_of_field? (by simp)
    · exact Field.text_stable.required hgrouping (by simp)
    · exact Field.text_stable.maybe nofun hdescription (by simp) nofun

theorem readWith_of_forms {trail : Trail} {known : Option NodeKind} {kind : NodeKind} {entries : Entries}
    {nodes : List Node} {node : Node} (hknown : known = some kind ∨ known = none)
    (hkind : Value.field? "kind" entries = some (.text kind.word))
    (hchildren : readChildren trail (childrenKey kind) entries = .good nodes) (hclosed : Closed kind.keys entries)
    (hforms : Forms entries nodes kind node) : readWith trail known (.mapping none entries) = .good node := by
  have hassemble : assemble kind entries (readChildren trail (childrenKey kind) entries) = .good node := by
    rw [hchildren]
    exact assemble_eq_good.2 ⟨hclosed, nodes, .inr rfl, hforms⟩
  unfold readWith guarded
  rcases hknown with rfl | rfl
  · exact hassemble
  · dsimp only
    rw [discriminate_of_field? hkind]
    exact under_eq_good.2 hassemble

theorem readWith_toValue {known : Option NodeKind} {value : Value} {node : Node} (h : Reads known value node)
    (trail : Trail) : readWith trail known node.toValue = .good node := by
  induction h generalizing trail with
  | @mk known kind label entries items nodes node hkind hitems hlength _ _ hforms ih =>
    have hinside : ∀ c ∈ nodes, ∀ trail, readWith trail (knownUnder (childrenKey kind)) c.toValue = .good c := by
      have hpairs : List.Forall₂
          (fun _ c => ∀ trail, readWith trail (knownUnder (childrenKey kind)) c.toValue = .good c) items nodes :=
        List.forall₂_iff_zip.2 ⟨hlength, fun hp => ih _ hp⟩
      intro c hc
      obtain ⟨_, _, hread⟩ := exists_of_mem_of_forall₂ hpairs.flip hc
      exact hread
    obtain ⟨written, hvalue, hkind', hnodes, hclosed, hforms'⟩ := hforms.written
    rw [hvalue]
    refine readWith_of_forms (hkind.imp_right And.left) hkind' ?_ hclosed hforms'
    cases hkey : childrenKey kind with
    | none =>
      rw [hkey] at hitems
      cases hitems
      rw [readChildren_none, List.length_eq_zero_iff.1 hlength.symm]
    | some name =>
      rw [hkey] at hinside
      rw [readChildren_of_field? trail (hnodes name hkey), readItems_toValues fun c hc => hinside c hc trail]
      rfl

theorem readBody_stable {entries entries' : Entries} {nodes : List Node} (h : readBody entries = .good nodes)
    (hfield : Value.field? "nodes" entries' = some (.sequence none (toValues nodes))) :
    readBody entries' = .good nodes := by
  obtain ⟨items, _, hreads⟩ := reads_of_readChildren h
  unfold readBody
  rw [readChildren_of_field? [] hfield, readItems_toValues]
  · rfl
  · intro node hnode
    obtain ⟨item, _, hread⟩ := exists_of_mem_of_forall₂ hreads.flip hnode
    exact readWith_toValue hread []

end Node

theorem Grouping.read_stable : Stable read toValue := by
  intro value g h
  obtain ⟨_, entries, rfl, _, hname, hdescription, hnodes⟩ := read_eq_good.1 h
  refine read_eq_good.2 ⟨none, _, rfl, Written.Spelled.closed ?_ (by decide), ?_, ?_, ?_⟩
  · simp (disch := decide)
  · exact Field.identifier_stable.required hname (by simp)
  · exact Field.text_stable.maybe nofun hdescription (by simp) nofun
  · exact Node.readBody_stable hnodes (by simp)

theorem Augment.read_stable : Stable read toValue := by
  intro value a h
  obtain ⟨⟨_, entries, rfl, _, htarget, hdescription, hnodes⟩, hplaced⟩ := read_eq_good.1 h
  refine read_eq_good.2 ⟨⟨none, _, rfl, Written.Spelled.closed ?_ (by decide), ?_, ?_, ?_⟩, hplaced⟩
  · simp (disch := decide)
  · exact Field.text_stable.required htarget (by simp)
  · exact Field.text_stable.maybe nofun hdescription (by simp) nofun
  · exact Node.readBody_stable hnodes (by simp)

theorem Body.fields_stable {entries entries' : Entries} {body : Body} (h : fields entries = .good body)
    (hwritten : ∀ s ∈ keys.map Key.spelled, Value.field? s entries' = Value.field? s body.written) :
    fields entries' = .good body := by
  obtain ⟨hbound, horganization, hcontact, hdescription, hrevision, himports, hincludes, htypedefs, hgroupings, hnodes,
    haugments, hsource⟩ := fields_eq_good.1 h
  simp only [keys, plainKeys, List.map_cons, List.map_nil, List.forall_mem_cons] at hwritten
  obtain ⟨hbound', horganization', hcontact', hdescription', hrevision', himports', hincludes', htypedefs', hgroupings',
    hnodes', haugments', _⟩ := hwritten
  refine fields_eq_good.2 ⟨?_, ?_, ?_, ?_, ?_, ?_, ?_, ?_, ?_, ?_, ?_, hsource⟩
  · exact Field.identifier_stable.required hbound (hbound'.trans (by simp))
  · exact Field.text_stable.maybe nofun horganization (horganization'.trans (by simp)) nofun
  · exact Field.text_stable.maybe nofun hcontact (hcontact'.trans (by simp)) nofun
  · exact Field.text_stable.maybe nofun hdescription (hdescription'.trans (by simp)) nofun
  · exact Field.anyText_stable.maybe nofun hrevision (hrevision'.trans (by simp)) nofun
  · exact Import.read_stable.list.withDefault rfl himports (himports'.trans (by simp))
  · exact Field.identifier_stable.list.withDefault rfl hincludes (hincludes'.trans (by simp))
  · exact Typedef.read_stable.list.withDefault rfl htypedefs (htypedefs'.trans (by simp))
  · exact Grouping.read_stable.list.withDefault rfl hgroupings (hgroupings'.trans (by simp))
  · exact Node.readBody_stable hnodes (hnodes'.trans (by simp))
  · exact Augment.read_stable.list.withDefault rfl haugments (haugments'.trans (by simp))

theorem Module.read_stable : Stable read toValue := by
  intro value m h
  obtain ⟨_, entries, rfl, _, hbody, hname, huri⟩ := read_eq_good.1 h
  refine read_eq_good.2 ⟨none, _, rfl, Written.Spelled.closed ?_ (by decide), ?_, ?_, ?_⟩
  · simp (disch := decide)
  · exact Body.fields_stable hbody (by simp)
  · exact Field.identifier_stable.required hname (by simp)
  · exact Field.text_stable.required huri (by simp)

theorem Submodule.read_stable : Stable read toValue := by
  intro value s h
  obtain ⟨_, entries, rfl, _, hbody, hname, howner⟩ := read_eq_good.1 h
  refine read_eq_good.2 ⟨none, _, rfl, Written.Spelled.closed ?_ (by decide), ?_, ?_, ?_⟩
  · simp (disch := decide)
  · exact Body.fields_stable hbody (by simp)
  · exact Field.identifier_stable.required hname (by simp)
  · exact Field.identifier_stable.required howner (by simp)

end Yang

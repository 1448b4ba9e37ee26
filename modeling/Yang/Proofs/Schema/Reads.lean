import Yang.Proofs.Schema.Fields

/-!
This module contains what a reading of a node without issues tells about the value: which kind it was read as, what its
fields are, and which nodes were read inside of it.
-/

namespace Yang

open Yang.Yaml (Value)
open Checked Record

namespace Node

def knownUnder (wanted : Option String) : Option NodeKind :=
  wanted.bind fun name => if name = "cases" then some .case else none

def itemsUnder? (wanted : Option String) (entries : Entries) : Option (List Value) :=
  match wanted.bind (Value.field? · entries) with
  | some value => Field.items? value
  | none => some []

theorem itemsUnder?_of_eq (name : String) (value : Value) (rest : Entries) :
    itemsUnder? (some name) ((.text name, value) :: rest) = Field.items? value := by
  unfold itemsUnder?
  rw [Option.bind_some, Value.field?, if_pos rfl]

theorem itemsUnder?_of_ne {wanted : Option String} {key : Value} (h : ∀ name, wanted = some name → key ≠ .text name)
    (value : Value) (rest : Entries) : itemsUnder? wanted ((key, value) :: rest) = itemsUnder? wanted rest := by
  cases wanted with
  | none => rfl
  | some name =>
    have hfield : Value.field? name ((key, value) :: rest) = Value.field? name rest := by
      cases key with
      | text s => rw [Value.field?, if_neg fun heq => h name rfl (congrArg _ heq)]
      | _ => rfl
    unfold itemsUnder?
    rw [Option.bind_some, Option.bind_some, hfield]

inductive Forms (entries : Entries) (nodes : List Node) : NodeKind → Node → Prop
  | container {head : Container} (h : Container.fields entries = .good head) :
    Forms entries nodes .container (.container head nodes)
  | list {head : KeyedList} (h : KeyedList.fields entries = .good head) (hbounds : head.crossing? = none) :
    Forms entries nodes .list (.list head nodes)
  | leaf {head : Leaf} (h : Leaf.fields entries = .good head) : Forms entries nodes .leaf (.leaf head)
  | leafList {head : LeafList} (h : LeafList.fields entries = .good head) :
    Forms entries nodes .leafList (.leafList head)
  | choice {head : Choice} (h : Choice.fields entries = .good head) : Forms entries nodes .choice (.choice head nodes)
  | case {head : Case} (h : Case.fields entries = .good head) : Forms entries nodes .case (.case head nodes)
  | uses {head : Uses} (h : Uses.fields entries = .good head) : Forms entries nodes .uses (.uses head)

theorem assemble_eq_good {kind : NodeKind} {entries : Entries} {children : Checked (List Node)} {node : Node} :
    assemble kind entries children = .good node
      ↔ Closed kind.keys entries
        ∧ ∃ nodes, (childrenKey kind = none ∧ nodes = [] ∨ children = .good nodes) ∧ Forms entries nodes kind node := by
  unfold assemble
  rw [whenGood_eq_good, closed_eq_good, and_assoc]
  apply and_congr_right'
  cases kind with
  | container =>
    dsimp only
    rw [map_seq_eq_good]
    constructor
    · rintro ⟨⟨head, nodes, hhead, hnodes, rfl⟩, _⟩
      exact ⟨nodes, .inr hnodes, .container hhead⟩
    · rintro ⟨nodes, ⟨⟨⟩, _⟩ | hnodes, hforms⟩
      cases hforms with
      | container hhead => exact ⟨⟨_, nodes, hhead, hnodes, rfl⟩, rfl⟩
  | list =>
    dsimp only
    rw [map_seq_eq_good]
    constructor
    · rintro ⟨⟨head, nodes, hhead, hnodes, rfl⟩, hbounds⟩
      exact ⟨nodes, .inr hnodes, .list hhead hbounds⟩
    · rintro ⟨nodes, ⟨⟨⟩, _⟩ | hnodes, hforms⟩
      cases hforms with
      | list hhead hbounds => exact ⟨⟨_, nodes, hhead, hnodes, rfl⟩, hbounds⟩
  | leaf =>
    dsimp only
    rw [map_eq_good]
    constructor
    · rintro ⟨⟨head, hhead, rfl⟩, _⟩
      exact ⟨[], .inl ⟨rfl, rfl⟩, .leaf hhead⟩
    · rintro ⟨_, _, hforms⟩
      cases hforms with
      | leaf hhead => exact ⟨⟨_, hhead, rfl⟩, rfl⟩
  | leafList =>
    dsimp only
    rw [map_eq_good]
    constructor
    · rintro ⟨⟨head, hhead, rfl⟩, _⟩
      exact ⟨[], .inl ⟨rfl, rfl⟩, .leafList hhead⟩
    · rintro ⟨_, _, hforms⟩
      cases hforms with
      | leafList hhead => exact ⟨⟨_, hhead, rfl⟩, rfl⟩
  | choice =>
    dsimp only
    rw [map_seq_eq_good]
    constructor
    · rintro ⟨⟨head, nodes, hhead, hnodes, rfl⟩, _⟩
      exact ⟨nodes, .inr hnodes, .choice hhead⟩
    · rintro ⟨nodes, ⟨⟨⟩, _⟩ | hnodes, hforms⟩
      cases hforms with
      | choice hhead => exact ⟨⟨_, nodes, hhead, hnodes, rfl⟩, rfl⟩
  | case =>
    dsimp only
    rw [map_seq_eq_good]
    constructor
    · rintro ⟨⟨head, nodes, hhead, hnodes, rfl⟩, _⟩
      exact ⟨nodes, .inr hnodes, .case hhead⟩
    · rintro ⟨nodes, ⟨⟨⟩, _⟩ | hnodes, hforms⟩
      cases hforms with
      | case hhead => exact ⟨⟨_, nodes, hhead, hnodes, rfl⟩, rfl⟩
  | uses =>
    dsimp only
    rw [map_eq_good]
    constructor
    · rintro ⟨⟨head, hhead, rfl⟩, _⟩
      exact ⟨[], .inl ⟨rfl, rfl⟩, .uses hhead⟩
    · rintro ⟨_, _, hforms⟩
      cases hforms with
      | uses hhead => exact ⟨⟨_, hhead, rfl⟩, rfl⟩

inductive Reads : Option NodeKind → Value → Node → Prop
  | mk {known : Option NodeKind} {kind : NodeKind} {label : Option Nat} {entries : Entries} {items : List Value}
    {nodes : List Node} {node : Node} (hkind : known = some kind ∨ known = none ∧ discriminate entries = .ok kind)
    (hitems : itemsUnder? (childrenKey kind) entries = some items) (hlength : items.length = nodes.length)
    (hinside : ∀ p ∈ items.zip nodes, Reads (knownUnder (childrenKey kind)) p.1 p.2)
    (hclosed : Closed kind.keys entries) (hforms : Forms entries nodes kind node) :
    Reads known (.mapping label entries) node

def ReadsUnder (wanted : Option String) (entries : Entries) (nodes : List Node) : Prop :=
  ∃ items, itemsUnder? wanted entries = some items ∧ List.Forall₂ (Reads (knownUnder wanted)) items nodes

theorem readChildren_none (trail : Trail) (entries : Entries) : readChildren trail none entries = .good [] := by
  induction entries with
  | nil => rfl
  | cons e rest ih =>
    rw [readChildren]
    · exact ih
    · intro _ _ h
      cases h

theorem reads_of_guarded {trail : Trail} {known : Option NodeKind} {kind : NodeKind} {label : Option Nat}
    {entries : Entries} {node : Node}
    (hkind : known = some kind ∨ known = none ∧ discriminate entries = .ok kind)
    (hchildren : ∀ trail nodes, readChildren trail (childrenKey kind) entries = .good nodes →
      ReadsUnder (childrenKey kind) entries nodes)
    (h : guarded trail label kind (fun trail => assemble kind entries (readChildren trail (childrenKey kind) entries))
      = .good node) :
    Reads known (.mapping label entries) node := by
  have hassemble : ∃ trail, assemble kind entries (readChildren trail (childrenKey kind) entries) = .good node := by
    unfold guarded at h
    split at h
    · exact ⟨_, h⟩
    · split at h
      · cases h
      · exact ⟨_, h⟩
  obtain ⟨trail, hassemble⟩ := hassemble
  obtain ⟨hclosed, nodes, hnodes, hforms⟩ := assemble_eq_good.1 hassemble
  have hread : readChildren trail (childrenKey kind) entries = .good nodes := by
    rcases hnodes with ⟨hkey, rfl⟩ | hnodes
    · rw [hkey]
      exact readChildren_none _ _
    · exact hnodes
  obtain ⟨items, hitems, hreads⟩ := hchildren trail nodes hread
  obtain ⟨hlength, hinside⟩ := List.forall₂_iff_zip.1 hreads
  exact .mk hkind hitems hlength (fun _ hp => hinside hp) hclosed hforms

mutual

theorem reads_of_readWith {trail : Trail} {known : Option NodeKind} {value : Value} {node : Node}
    (h : readWith trail known value = .good node) : Reads known value node := by
  match value with
  | .mapping label entries =>
    unfold readWith at h
    split at h
    · exact reads_of_guarded (.inl rfl) (fun trail nodes => reads_of_readChildren) h
    · split at h
      · next hkind =>
        exact reads_of_guarded (.inr ⟨rfl, hkind⟩) (fun trail nodes => reads_of_readChildren) (under_eq_good.1 h)
      · cases h
  | .null | .bool _ | .int _ | .real _ | .text _ | .octets _ | .date _ | .moment _ | .sequence _ _ | .set _
  | .pair _ _ =>
    unfold readWith at h
    cases known <;> cases h

theorem reads_of_readChildren {trail : Trail} {wanted : Option String} {entries : Entries} {nodes : List Node}
    (h : readChildren trail wanted entries = .good nodes) : ReadsUnder wanted entries nodes := by
  match entries with
  | [] =>
    unfold readChildren at h
    cases h
    refine ⟨[], ?_, .nil⟩
    cases wanted <;> rfl
  | (key, value) :: rest =>
    unfold readChildren at h
    split at h
    · next name found =>
      split at h
      · next heq =>
        subst heq
        have hread := under_eq_good.1 h
        unfold ReadsUnder
        rw [itemsUnder?_of_eq]
        match value with
        | .sequence _ items => exact ⟨items, rfl, reads_of_readItems hread⟩
        | .set items => exact ⟨items, rfl, reads_of_readItems hread⟩
        | .pair first second =>
          obtain ⟨_, b, hfirst, hb, rfl⟩ := seq_eq_good.1 hread
          obtain ⟨a, ha, rfl⟩ := map_eq_good.1 hfirst
          exact ⟨[first, second], rfl,
            .cons (reads_of_readWith (under_eq_good.1 ha)) (.cons (reads_of_readWith (under_eq_good.1 hb)) .nil)⟩
        | .null | .bool _ | .int _ | .real _ | .text _ | .octets _ | .date _ | .moment _ | .mapping _ _ => cases hread
      · next hne =>
        unfold ReadsUnder
        rw [itemsUnder?_of_ne fun name hname => by
          cases hname
          exact fun htext => hne (Value.text.inj htext)]
        exact reads_of_readChildren h
    · next hother =>
      unfold ReadsUnder
      rw [itemsUnder?_of_ne fun name hname htext => hother name name hname htext]
      exact reads_of_readChildren h

theorem reads_of_readItems {trail : Trail} {known : Option NodeKind} {index : Nat} {items : List Value}
    {nodes : List Node} (h : readItems trail known index items = .good nodes) :
    List.Forall₂ (Reads known) items nodes := by
  match items with
  | [] =>
    unfold readItems at h
    cases h
    exact .nil
  | item :: rest =>
    unfold readItems at h
    obtain ⟨_, more, hfirst, hmore, rfl⟩ := seq_eq_good.1 h
    obtain ⟨node, hnode, rfl⟩ := map_eq_good.1 hfirst
    exact .cons (reads_of_readWith (under_eq_good.1 hnode)) (reads_of_readItems hmore)

end

end Node

end Yang

import Yang.Schema.Record

/-!
This module contains the readers of the statements of a document. A reader accepts a mapping when each of its
keys belongs to the statement and each field has a value of its kind; otherwise it returns everything that is
wrong, first by field and then by key.
-/

namespace Yang

open Yang.Yaml (Value)
open Record

namespace Restrictions

def keys : List Key :=
  plainKeys ["enums", "range", "length", "pattern", "path"]

def fields (entries : Entries) : Checked Restrictions :=
  Restrictions.mk
    <$> optional "enums" (Field.list Field.anyText) entries
    <*> optional "range" Field.anyText entries
    <*> optional "length" Field.anyText entries
    <*> optional "pattern" Field.text entries
    <*> optional "path" Field.text entries

def read : Value → Checked Restrictions :=
  Record.read "Restrictions" keys fields

end Restrictions

namespace Typedef

def keys : List Key :=
  Restrictions.keys ++ plainKeys ["name", "type", "description", "default", "units"]

def fields (entries : Entries) : Checked Typedef :=
  Typedef.mk
    <$> Restrictions.fields entries
    <*> required "name" Field.identifier entries
    <*> required "type" Field.text entries
    <*> optional "description" Field.text entries
    <*> optional "default" Field.anyText entries
    <*> optional "units" Field.anyText entries

def read : Value → Checked Typedef :=
  Record.read "Typedef" keys fields

end Typedef

namespace Import

def read : Value → Checked Import :=
  Record.read "Import" (plainKeys ["module", "prefix"]) fun entries =>
    Import.mk
      <$> required "module" Field.identifier entries
      <*> required "prefix" Field.identifier entries

end Import

def minElementsKey : Key := ⟨"min-elements", some "min_elements"⟩

def maxElementsKey : Key := ⟨"max-elements", some "max_elements"⟩

def orderedByKey : Key := ⟨"ordered-by", some "ordered_by"⟩

def boundKeys : List Key :=
  [minElementsKey, maxElementsKey, orderedByKey]

namespace NodeKind

def keys : NodeKind → List Key
  | container => plainKeys ["kind", "name", "description", "config", "presence", "nodes"]
  | list =>
    plainKeys ["kind", "name", "description", "config", "key", "nodes"] ++ boundKeys
  | leaf =>
    Restrictions.keys
      ++ plainKeys ["kind", "name", "type", "description", "config", "mandatory", "default", "units"]
  | leafList =>
    Restrictions.keys
      ++ plainKeys ["kind", "name", "type", "description", "config", "units"] ++ boundKeys
  | choice => plainKeys ["kind", "name", "description", "config", "mandatory", "default", "cases"]
  | case => plainKeys ["kind", "name", "description", "nodes"]
  | uses => plainKeys ["kind", "grouping", "description"]

def model : NodeKind → String
  | container => "ContainerNode"
  | list => "ListNode"
  | leaf => "LeafNode"
  | leafList => "LeafListNode"
  | choice => "ChoiceNode"
  | case => "CaseNode"
  | uses => "UsesNode"

def field (kind : NodeKind) (entries : Entries) : Checked Unit :=
  withDefault "kind" () (Field.choice [(kind.word, ())]) entries

end NodeKind

def KeyedList.crossing? (head : KeyedList) : Option Complaint :=
  match head.minElements, head.maxElements with
  | some least, some greatest => if greatest < least then some .boundsCrossed else none
  | _, _ => none

def Container.fields (entries : Entries) : Checked Container :=
  (fun _ name description config presence => ⟨name, description, config, presence⟩)
    <$> NodeKind.container.field entries
    <*> required "name" Field.identifier entries
    <*> optional "description" Field.text entries
    <*> optional "config" Field.truth entries
    <*> optional "presence" Field.text entries

def KeyedList.fields (entries : Entries) : Checked KeyedList :=
  (fun _ name description config key least greatest order =>
      ⟨name, description, config, key, least, greatest, order⟩)
    <$> NodeKind.list.field entries
    <*> required "name" Field.identifier entries
    <*> optional "description" Field.text entries
    <*> optional "config" Field.truth entries
    <*> optional "key" Field.text entries
    <*> optional minElementsKey Field.count entries
    <*> optional maxElementsKey Field.positive entries
    <*> withDefault orderedByKey .system Field.orderedBy entries

def Leaf.fields (entries : Entries) : Checked Leaf :=
  (fun restrictions _ name type description config mandatory default units =>
      ⟨restrictions, name, type, description, config, mandatory, default, units⟩)
    <$> Restrictions.fields entries
    <*> NodeKind.leaf.field entries
    <*> required "name" Field.identifier entries
    <*> required "type" Field.text entries
    <*> optional "description" Field.text entries
    <*> optional "config" Field.truth entries
    <*> withDefault "mandatory" false Field.truth entries
    <*> optional "default" Field.anyText entries
    <*> optional "units" Field.anyText entries

def LeafList.fields (entries : Entries) : Checked LeafList :=
  (fun restrictions _ name type description config least greatest order units =>
      ⟨restrictions, name, type, description, config, least, greatest, order, units⟩)
    <$> Restrictions.fields entries
    <*> NodeKind.leafList.field entries
    <*> required "name" Field.identifier entries
    <*> required "type" Field.text entries
    <*> optional "description" Field.text entries
    <*> optional "config" Field.truth entries
    <*> optional minElementsKey Field.count entries
    <*> optional maxElementsKey Field.positive entries
    <*> withDefault orderedByKey .system Field.orderedBy entries
    <*> optional "units" Field.anyText entries

def Choice.fields (entries : Entries) : Checked Choice :=
  (fun _ name description config mandatory default => ⟨name, description, config, mandatory, default⟩)
    <$> NodeKind.choice.field entries
    <*> required "name" Field.identifier entries
    <*> optional "description" Field.text entries
    <*> optional "config" Field.truth entries
    <*> withDefault "mandatory" false Field.truth entries
    <*> optional "default" Field.text entries

def Case.fields (entries : Entries) : Checked Case :=
  (fun _ name description => ⟨name, description⟩)
    <$> NodeKind.case.field entries
    <*> required "name" Field.identifier entries
    <*> optional "description" Field.text entries

def Uses.fields (entries : Entries) : Checked Uses :=
  (fun _ grouping description => ⟨grouping, description⟩)
    <$> NodeKind.uses.field entries
    <*> required "grouping" Field.text entries
    <*> optional "description" Field.text entries

abbrev Trail : Type := List (Nat × NodeKind)

namespace Node

def discriminate (entries : Entries) : Except Complaint NodeKind :=
  match Value.field? "kind" entries with
  | none => .error .noKind
  | some (.text word) =>
    match NodeKind.ofWord? word with
    | some kind => .ok kind
    | none => .error (.unknownKind (Text.mended word))
  | some value => .error (.unknownKind value.words)

/--
Read a mapping as a node of a kind, once it is known that the reader is not inside of it.
-/
def guarded (trail : Trail) (label : Option Nat) (kind : NodeKind) (read : Trail → Checked Node) : Checked Node :=
  match label with
  | none => read trail
  | some label => if trail.contains (label, kind) then .fail .recursion else read ((label, kind) :: trail)

def assemble (kind : NodeKind) (entries : Entries) (children : Checked (List Node)) : Checked Node :=
  let reading :=
    match kind with
    | .container => container <$> Container.fields entries <*> children
    | .list => list <$> KeyedList.fields entries <*> children
    | .leaf => leaf <$> Leaf.fields entries
    | .leafList => leafList <$> LeafList.fields entries
    | .choice => choice <$> Choice.fields entries <*> children
    | .case => case <$> Case.fields entries <*> children
    | .uses => uses <$> Uses.fields entries
  (closed kind.keys entries reading).whenGood fun
    | list head _ => head.crossing?
    | _ => none

def childrenKey : NodeKind → Option String
  | .container => some "nodes"
  | .list => some "nodes"
  | .choice => some "cases"
  | .case => some "nodes"
  | _ => none

mutual

def readWith (trail : Trail) (known : Option NodeKind) (value : Value) : Checked Node :=
  match value with
  | .mapping label entries =>
    match known with
    | some kind =>
      guarded trail label kind fun trail =>
        assemble kind entries (readChildren trail (childrenKey kind) entries)
    | none =>
      match discriminate entries with
      | .ok kind =>
        (guarded trail label kind fun trail =>
          assemble kind entries (readChildren trail (childrenKey kind) entries)).under kind.word
      | .error complaint => .fail complaint
  | _ =>
    match known with
    | some kind => .fail (.notModel kind.model)
    | none => .fail .notNode

def readChildren (trail : Trail) (wanted : Option String) (entries : Entries) : Checked (List Node) :=
  match entries with
  | [] => .good []
  | (key, value) :: rest =>
    match wanted, key with
    | some name, .text found =>
      if found = name then
        -- cases are told by their place, all other nodes by their kind
        let known := if name = "cases" then some NodeKind.case else none
        Checked.under name <|
          match value with
          | .sequence _ items => readItems trail known 0 items
          | .set items => readItems trail known 0 items
          | .pair first second =>
            (fun a b => [a, b])
              <$> (readWith trail known first).under "0"
              <*> (readWith trail known second).under "1"
          | _ => .fail .notList
      else
        readChildren trail wanted rest
    | _, _ => readChildren trail wanted rest

def readItems (trail : Trail) (known : Option NodeKind) (index : Nat) (items : List Value) :
    Checked (List Node) :=
  match items with
  | [] => .good []
  | item :: rest =>
    List.cons
      <$> (readWith trail known item).under (toString index)
      <*> readItems trail known (index + 1) rest

end

def read (kind : NodeKind) : Value → Checked Node :=
  readWith [] (some kind)

def readBody (entries : Entries) : Checked (List Node) :=
  readChildren [] (some "nodes") entries

end Node

namespace Grouping

def read : Value → Checked Grouping :=
  Record.read "Grouping" (plainKeys ["name", "description", "nodes"]) fun entries =>
    Grouping.mk
      <$> required "name" Field.identifier entries
      <*> optional "description" Field.text entries
      <*> Node.readBody entries

end Grouping

namespace Augment

def misplaced? (augment : Augment) : Option Complaint :=
  if augment.target.startsWith "/" ∧ Text.strip augment.target ≠ "/" then
    none
  else
    some (.relativeTarget (Text.quoted augment.target))

def read (value : Value) : Checked Augment :=
  let reading :=
    Record.read "Augment" (plainKeys ["target", "description", "nodes"]) (fun entries =>
      Augment.mk
        <$> required "target" Field.text entries
        <*> optional "description" Field.text entries
        <*> Node.readBody entries) value
  -- the target is looked at only when every field is good
  reading.whenGood misplaced?

end Augment

namespace Body

def keys : List Key :=
  plainKeys ["prefix", "organization", "contact", "description", "revision", "imports", "includes", "typedefs",
    "groupings", "nodes", "augments"]

def fields (entries : Entries) : Checked Body :=
  (fun prefixId organization contact description revision imports includes typedefs groupings nodes
      augments =>
      ⟨prefixId, organization, contact, description, revision, imports, includes, typedefs, groupings, nodes,
        augments, ""⟩)
    <$> required "prefix" Field.identifier entries
    <*> optional "organization" Field.text entries
    <*> optional "contact" Field.text entries
    <*> optional "description" Field.text entries
    <*> optional "revision" Field.anyText entries
    <*> Record.list "imports" Import.read entries
    <*> Record.list "includes" Field.identifier entries
    <*> Record.list "typedefs" Typedef.read entries
    <*> Record.list "groupings" Grouping.read entries
    <*> Node.readBody entries
    <*> Record.list "augments" Augment.read entries

end Body

namespace Module

def nameKey : Key := ⟨"module", some "name"⟩

def read : Value → Checked Module :=
  Record.read "Module" (Body.keys ++ [nameKey, "namespace"]) fun entries =>
    (fun body name uri => ⟨name, uri, body⟩)
      <$> Body.fields entries
      <*> required nameKey Field.identifier entries
      <*> required "namespace" Field.text entries

end Module

namespace Submodule

def nameKey : Key := ⟨"submodule", some "name"⟩

def ownerKey : Key := ⟨"belongs-to", some "belongs_to"⟩

def read : Value → Checked Submodule :=
  Record.read "Submodule" (Body.keys ++ [nameKey, ownerKey]) fun entries =>
    (fun body name owner => ⟨name, owner, body⟩)
      <$> Body.fields entries
      <*> required nameKey Field.identifier entries
      <*> required ownerKey Field.identifier entries

end Submodule

end Yang

import Yang.Schema.Basic
import Yang.Yaml.Value

/-!
This module contains the data that a statement is written as: every field under its own spelling, with the fields
that have a default, and without those that are absent.
-/

namespace Yang

open Yang.Yaml (Value)

namespace Written

def field (name : String) (value : Value) : List (Value × Value) :=
  [(.text name, value)]

def text (name s : String) : List (Value × Value) :=
  field name (.text s)

def optional {α : Type} (name : String) (write : α → Value) : Option α → List (Value × Value)
  | some a => field name (write a)
  | none => []

def optionalCount (name : String) : Option Nat → List (Value × Value) :=
  optional name (fun n => .int n)

def list {α : Type} (name : String) (write : α → Value) (items : List α) : List (Value × Value) :=
  field name (.sequence none (items.map write))

end Written

open Written

def Restrictions.written (r : Restrictions) : List (Value × Value) :=
  optional "enums" (fun names => .sequence none (names.map Value.text)) r.enums
    ++ optional "range" Value.text r.range
    ++ optional "length" Value.text r.length
    ++ optional "pattern" Value.text r.pattern
    ++ optional "path" Value.text r.path

def Restrictions.toValue (r : Restrictions) : Value :=
  .mapping none r.written

def Typedef.toValue (t : Typedef) : Value :=
  .mapping none <|
    t.restrictions.written
      ++ text "name" t.name
      ++ text "type" t.type
      ++ optional "description" Value.text t.description
      ++ optional "default" Value.text t.default
      ++ optional "units" Value.text t.units

def Import.toValue (i : Import) : Value :=
  .mapping none (text "module" i.moduleName ++ text "prefix" i.prefixId)

def Node.headWritten : Node → List (Value × Value)
  | container head _ =>
    text "kind" "container"
      ++ text "name" head.name
      ++ optional "description" Value.text head.description
      ++ optional "config" Value.bool head.config
      ++ optional "presence" Value.text head.presence
  | list head _ =>
    text "kind" "list"
      ++ text "name" head.name
      ++ optional "description" Value.text head.description
      ++ optional "config" Value.bool head.config
      ++ optional "key" Value.text head.key
      ++ optionalCount "min-elements" head.minElements
      ++ optionalCount "max-elements" head.maxElements
      ++ text "ordered-by" head.orderedBy.word
  | leaf head =>
    head.restrictions.written
      ++ text "kind" "leaf"
      ++ text "name" head.name
      ++ text "type" head.type
      ++ optional "description" Value.text head.description
      ++ optional "config" Value.bool head.config
      ++ field "mandatory" (.bool head.mandatory)
      ++ optional "default" Value.text head.default
      ++ optional "units" Value.text head.units
  | leafList head =>
    head.restrictions.written
      ++ text "kind" "leaf-list"
      ++ text "name" head.name
      ++ text "type" head.type
      ++ optional "description" Value.text head.description
      ++ optional "config" Value.bool head.config
      ++ optionalCount "min-elements" head.minElements
      ++ optionalCount "max-elements" head.maxElements
      ++ text "ordered-by" head.orderedBy.word
      ++ optional "units" Value.text head.units
  | choice head _ =>
    text "kind" "choice"
      ++ text "name" head.name
      ++ optional "description" Value.text head.description
      ++ optional "config" Value.bool head.config
      ++ field "mandatory" (.bool head.mandatory)
      ++ optional "default" Value.text head.default
  | case head _ =>
    text "kind" "case"
      ++ text "name" head.name
      ++ optional "description" Value.text head.description
  | uses head =>
    text "kind" "uses"
      ++ text "grouping" head.grouping
      ++ optional "description" Value.text head.description

mutual

def Node.toValue (node : Node) : Value :=
  match node with
  | .container head nodes =>
    .mapping none (Node.headWritten (.container head [])
      ++ field "nodes" (.sequence none (Node.toValues nodes)))
  | .list head nodes =>
    .mapping none (Node.headWritten (.list head [])
      ++ field "nodes" (.sequence none (Node.toValues nodes)))
  | .leaf head => .mapping none (Node.headWritten (.leaf head))
  | .leafList head => .mapping none (Node.headWritten (.leafList head))
  | .choice head cases =>
    .mapping none (Node.headWritten (.choice head [])
      ++ field "cases" (.sequence none (Node.toValues cases)))
  | .case head nodes =>
    .mapping none (Node.headWritten (.case head [])
      ++ field "nodes" (.sequence none (Node.toValues nodes)))
  | .uses head => .mapping none (Node.headWritten (.uses head))

def Node.toValues (nodes : List Node) : List Value :=
  match nodes with
  | [] => []
  | node :: rest => node.toValue :: Node.toValues rest

end

def Grouping.toValue (g : Grouping) : Value :=
  .mapping none <|
    text "name" g.name
      ++ optional "description" Value.text g.description
      ++ field "nodes" (.sequence none (Node.toValues g.nodes))

def Augment.toValue (a : Augment) : Value :=
  .mapping none <|
    text "target" a.target
      ++ optional "description" Value.text a.description
      ++ field "nodes" (.sequence none (Node.toValues a.nodes))

def Body.written (b : Body) : List (Value × Value) :=
  text "prefix" b.prefixId
    ++ optional "organization" Value.text b.organization
    ++ optional "contact" Value.text b.contact
    ++ optional "description" Value.text b.description
    ++ optional "revision" Value.text b.revision
    ++ list "imports" Import.toValue b.imports
    ++ list "includes" Value.text b.includes
    ++ list "typedefs" Typedef.toValue b.typedefs
    ++ list "groupings" Grouping.toValue b.groupings
    ++ field "nodes" (.sequence none (Node.toValues b.nodes))
    ++ list "augments" Augment.toValue b.augments

def Module.toValue (m : Module) : Value :=
  .mapping none (m.body.written ++ text "module" m.name ++ text "namespace" m.uri)

def Submodule.toValue (s : Submodule) : Value :=
  .mapping none (s.body.written ++ text "submodule" s.name ++ text "belongs-to" s.owner)

def Document.toValue : Document → Value
  | main m => m.toValue
  | part s => s.toValue

end Yang

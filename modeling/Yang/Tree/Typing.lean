import Yang.Entry
import Yang.Journal
import Yang.Scope

/-!
This module contains the resolution of types. A reference leads to a built-in type or to a derived type, which has a
reference of its own. What a derived type resolves to is remembered, so what is wrong with it is reported once.
-/

namespace Yang

def builtinTypes : List String :=
  ["binary", "bits", "boolean", "decimal64", "empty", "enumeration", "identityref", "instance-identifier", "int8",
    "int16", "int32", "int64", "leafref", "string", "uint8", "uint16", "uint32", "uint64", "union"]

/--
What was found out while trees are built: problems, notes, and what derived types resolve to.
-/
structure Work where
  problems : List Diagnostic
  notes : List Note
  types : List (DefinitionKey × Option ResolvedType)
  deriving Repr, Inhabited

namespace Work

def empty : Work :=
  ⟨[], [], []⟩

def report (w : Work) (context : Context) (finding : Finding) : Work :=
  { w with problems := w.problems ++ [context.problem finding] }

def reportAll (w : Work) (context : Context) (findings : List Finding) : Work :=
  { w with problems := w.problems ++ findings.map context.problem }

def note (w : Work) (n : Note) : Work :=
  { w with notes := w.notes ++ [n] }

def remember (w : Work) (key : DefinitionKey) (type : Option ResolvedType) : Work :=
  if (w.types.lookup key).isSome then w else { w with types := w.types ++ [(key, type)] }

end Work

namespace ResolvedType

def builtin (name : String) : ResolvedType :=
  ⟨name, name, [], [], none, none⟩

def restrict (type : ResolvedType) (r : Restrictions) : ResolvedType :=
  { type with facets := putAll type.facets r.facets }

def referred (reference : String) (type : ResolvedType) : ResolvedType :=
  { type with name := reference, typedefs := reference :: type.typedefs.drop 1 }

def derived (typedef : Typedef) (inner : ResolvedType) : ResolvedType :=
  { inner with
    name := typedef.name
    typedefs := typedef.name :: inner.typedefs
    default := typedef.default.or inner.default
    units := typedef.units.or inner.units }

end ResolvedType

namespace Scopes

def isBuiltin (reference : String) : Bool :=
  let r := Reference.ofText reference
  r.prefixId.isNone && builtinTypes.contains r.name

mutual

/--
The type that a reference in a document stands for, with the restrictions of the statement that refers to it.
-/
def typeOf (scopes : Scopes) (inside : List DefinitionKey) (context : Context) (reference : String)
    (declared : Restrictions) (w : Work) : Option ResolvedType × Work :=
  if isBuiltin reference then
    (some ((ResolvedType.builtin reference).restrict declared), w)
  else
    match _h : (scopes.resolve context reference : Except Finding (Located Typedef)) with
    | .error finding => (none, w.report context finding)
    | .ok found =>
      let (base, w) := typeOfTypedef scopes inside found (mem_definitions_of_resolve _h) w
      (base.map (fun type => (type.referred reference).restrict declared), w)
termination_by (scopes.remaining Typedef inside, 1)
decreasing_by
  simp only [Prod.lex_def]
  exact Or.inr ⟨trivial, Nat.zero_lt_one⟩

def typeOfTypedef (scopes : Scopes) (inside : List DefinitionKey) (found : Located Typedef)
    (_isThere : found ∈ scopes.definitions Typedef) (w : Work) : Option ResolvedType × Work :=
  match w.types.lookup found.key with
  | some known => (known, w)
  | none =>
    if _h : inside.contains found.key = true then
      (none, (w.report found.context (.recursive .typedef found.definition.name)).remember found.key none)
    else
      let (inner, w) :=
        typeOf scopes (found.key :: inside) found.context found.definition.type
          found.definition.restrictions w
      -- a recursion further in may have settled this type already
      let w := w.remember found.key (inner.map (fun type => type.derived found.definition))
      ((w.types.lookup found.key).join, w)
termination_by (scopes.remaining Typedef inside, 0)
decreasing_by
  simp only [Prod.lex_def]
  exact Or.inl (remaining_lt _isThere (by simpa using _h))

end

end Scopes

end Yang

import Yang.Diagnostic
import Yang.Measure
import Yang.Reference
import Yang.Schema.Basic

/-!
This module contains scopes: the documents of a module and what the names in them stand for. A definition that two
documents of a scope share is the one of the earlier document.
-/

namespace Yang

/--
A document in the scope of a module, with the modules that its prefixes stand for.
-/
structure Context where
  document : Document
  owner : String
  prefixes : List (String × String)
  deriving Repr, Inhabited

structure Scope where
  main : Module
  contexts : List Context
  deriving Repr, Inhabited

namespace Context

def first (owner : String) (document : Document) : Context :=
  ⟨document, owner, [(document.body.prefixId, owner)]⟩

def problem (context : Context) (finding : Finding) : Diagnostic :=
  let document := context.document
  ⟨document.body.source, .statement document.word document.name finding⟩

def moduleOf? (context : Context) : Option String → Option String
  | none => some context.owner
  | some prefixId => context.prefixes.lookup prefixId

end Context

class Defined (α : Type) where
  kind : Definition
  name : α → String
  all : Body → List α

instance : Defined Typedef where
  kind := .typedef
  name := Typedef.name
  all := Body.typedefs

instance : Defined Grouping where
  kind := .grouping
  name := Grouping.name
  all := Body.groupings

structure Located (α : Type) where
  definition : α
  context : Context
  deriving Repr, Inhabited

/--
What identifies a definition: the module of its scope and its name.
-/
abbrev DefinitionKey : Type := String × String

def Located.key {α : Type} [Defined α] (l : Located α) : DefinitionKey :=
  (l.context.owner, Defined.name l.definition)

abbrev Table (α : Type) : Type := List (String × Located α)

namespace Table

variable {α : Type}

def names (table : Table α) : List String :=
  table.map Prod.fst

theorem isSome_lookup_iff {table : Table α} {name : String} :
    (table.lookup name).isSome = true ↔ name ∈ table.names := by
  unfold names
  induction table with
  | nil => simp
  | cons entry rest ih =>
    rw [List.lookup_cons, List.map_cons, List.mem_cons]
    split
    · next hname => simp [eq_of_beq hname]
    · next hname => rw [ih, or_iff_right (by simpa using hname)]

variable [Defined α]

/--
Enter a definition under its name. A name that is taken keeps what it stands for.
-/
def enter (table : Table α) (l : Located α) : Table α :=
  let name := Defined.name l.definition
  if (table.lookup name).isSome then table else table ++ [(name, l)]

theorem mem_names_enter {table : Table α} {l : Located α} {name : String} :
    name ∈ (table.enter l).names ↔ name ∈ table.names ∨ name = Defined.name l.definition := by
  unfold enter
  dsimp only
  split
  · next hin =>
    rw [isSome_lookup_iff] at hin
    exact ⟨.inl, fun h => h.elim id fun h => h ▸ hin⟩
  · unfold names
    rw [List.map_append, List.map_singleton, List.mem_append, List.mem_singleton]

theorem lookup_enter (table : Table α) (l : Located α) (name : String) :
    (table.enter l).lookup name
      = (table.lookup name).or (if Defined.name l.definition == name then some l else none) := by
  unfold enter
  dsimp only
  split
  · next hin =>
    split
    · next hname =>
      rw [eq_of_beq hname] at hin
      obtain ⟨k, hk⟩ := Option.isSome_iff_exists.1 hin
      rw [hk, Option.some_or]
    · rw [Option.or_none]
  · rw [List.lookup_append, List.lookup_cons, List.lookup_nil, Bool.beq_comm]
    split <;> simp_all

theorem lookup_foldl_enter (table : Table α) (all : List (Located α)) (name : String) :
    (all.foldl enter table).lookup name
      = (table.lookup name).or (all.find? fun l => Defined.name l.definition == name) := by
  induction all generalizing table with
  | nil => rw [List.foldl_nil, List.find?_nil, Option.or_none]
  | cons l rest ih =>
    rw [List.foldl_cons, ih, lookup_enter, Option.or_assoc, List.find?_cons]
    cases Defined.name l.definition == name <;> simp

end Table

namespace Scope

variable {α : Type} [Defined α]

def definitions (α : Type) [Defined α] (scope : Scope) : List (Located α) :=
  scope.contexts.flatMap fun context =>
    (Defined.all context.document.body).map (fun definition => ⟨definition, context⟩)

def table (α : Type) [Defined α] (scope : Scope) : Table α :=
  (scope.definitions α).foldl Table.enter []

def find? (scope : Scope) (name : String) : Option (Located α) :=
  (scope.table α).lookup name

theorem find?_eq (scope : Scope) (name : String) :
    scope.find? name = (scope.definitions α).find? (fun l => Defined.name l.definition == name) :=
  Table.lookup_foldl_enter [] _ name

def firsts (α : Type) [Defined α] (scope : Scope) : List (Located α) :=
  go [] (scope.definitions α)
where
  go (names : List String) : List (Located α) → List (Located α)
    | [] => []
    | l :: rest =>
      let name := Defined.name l.definition
      -- a name that came before keeps its first definition
      if names.contains name then go names rest else l :: go (name :: names) rest

theorem mem_definitions_of_mem_firsts {scope : Scope} {l : Located α} (h : l ∈ scope.firsts α) :
    l ∈ scope.definitions α := by
  suffices ∀ (names : List String) (all : List (Located α)), l ∈ firsts.go α names all → l ∈ all from
    this [] _ h
  intro names all
  induction all generalizing names with
  | nil => exact id
  | cons first rest ih =>
    intro h
    unfold firsts.go at h
    dsimp only at h
    split at h
    · exact List.mem_cons_of_mem _ (ih _ h)
    · rcases List.mem_cons.1 h with rfl | h
      · exact List.mem_cons_self
      · exact List.mem_cons_of_mem _ (ih _ h)

end Scope

abbrev Scopes : Type := List Scope

namespace Scopes

variable {α : Type} [Defined α]

def scope? (scopes : Scopes) (name : String) : Option Scope :=
  scopes.find? (fun s => s.main.name == name)

def definitions (α : Type) [Defined α] (scopes : Scopes) : List (Located α) :=
  scopes.flatMap (Scope.definitions α)

def resolve (scopes : Scopes) (context : Context) (text : String) : Except Finding (Located α) :=
  let what := Defined.kind α
  let reference := Reference.ofText text
  match context.moduleOf? reference.prefixId with
  | none => .error (.unknownPrefix (reference.prefixId.getD "") what text)
  | some name =>
    match (scopes.scope? name).bind (fun scope => scope.find? reference.name) with
    | none => .error (.unknownName what text)
    | some found => .ok found

def remaining (α : Type) [Defined α] (scopes : Scopes) (inside : List DefinitionKey) : Nat :=
  ((scopes.definitions α).filter (fun l => !inside.contains l.key)).length

theorem mem_definitions_of_resolve {scopes : Scopes} {context : Context} {text : String}
    {found : Located α} (h : scopes.resolve context text = .ok found) :
    found ∈ scopes.definitions α := by
  unfold resolve at h
  dsimp only at h
  split at h
  · cases h
  · split at h
    · cases h
    · next hf =>
      cases h
      obtain ⟨scope, hs, hd⟩ := Option.bind_eq_some_iff.1 hf
      rw [Scope.find?_eq] at hd
      exact List.mem_flatMap.2 ⟨scope, List.mem_of_find?_eq_some hs, List.mem_of_find?_eq_some hd⟩

theorem remaining_lt {scopes : Scopes} {inside : List DefinitionKey} {found : Located α}
    (hmem : found ∈ scopes.definitions α) (hnew : inside.contains found.key = false) :
    scopes.remaining α (found.key :: inside) < scopes.remaining α inside := by
  refine Measure.length_filter_lt ?_ hmem (by simpa using hnew) (by simp)
  intro l _ hl
  simp only [List.contains_cons, Bool.not_or, Bool.and_eq_true] at hl
  exact hl.2

end Scopes

end Yang

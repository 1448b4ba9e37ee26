import Mathlib.Data.List.Permutation
import Yang.Proofs.Gather.Bindings
import Yang.Proofs.Gather.Mentions
import Yang.Proofs.Scope.Firsts
import Yang.Proofs.Typing.Way

/-!
This module contains what a gathered scope consists of: the documents that the module includes, directly or not, and
for every name the first definition of it in their order. The definitions that come too late are reported.
-/

namespace Yang

def Located.duplicate {α : Type} [Defined α] (l : Located α) : Diagnostic :=
  l.context.problem (.duplicate (Defined.kind α) (Defined.name l.definition))

namespace Scope

variable {α : Type} [Defined α]

def further (α : Type) [Defined α] (scope : Scope) : List (Located α) :=
  go [] (scope.definitions α)
where
  go (names : List String) : List (Located α) → List (Located α)
    | [] => []
    | l :: rest =>
      let name := Defined.name l.definition
      if names.contains name then l :: go names rest else go (name :: names) rest

theorem further.go_cons (names : List String) (l : Located α) (rest : List (Located α)) :
    go α names (l :: rest)
      = if names.contains (Defined.name l.definition) then l :: go α names rest
        else go α (Defined.name l.definition :: names) rest := rfl

theorem further.go_congr {names names' : List String} (h : ∀ name, name ∈ names ↔ name ∈ names')
    (all : List (Located α)) : go α names all = go α names' all := by
  induction all generalizing names names' with
  | nil => rfl
  | cons l rest ih =>
    rw [go_cons, go_cons, List.contains_eq_mem, List.contains_eq_mem, decide_eq_decide.2 (h _), ih h]
    rw [@ih (_ :: names) (_ :: names')]
    intro other
    rw [List.mem_cons, List.mem_cons, h]

theorem further.go_append (names : List String) (all more : List (Located α)) :
    go α names (all ++ more) = go α names all ++ go α (names ++ all.map fun l => Defined.name l.definition) more := by
  induction all generalizing names with
  | nil => rw [List.map_nil, List.append_nil]; rfl
  | cons l rest ih =>
    rw [List.cons_append, go_cons, go_cons, List.map_cons]
    split
    · next hin =>
      rw [List.contains_eq_mem, decide_eq_true_eq] at hin
      rw [ih, List.cons_append]
      congr 2
      apply go_congr
      intro other
      rw [List.mem_append, List.mem_append, List.mem_cons]
      constructor
      · exact Or.imp_right .inr
      · rintro (h | rfl | h)
        · exact .inl h
        · exact .inl hin
        · exact .inr h
    · rw [ih]
      congr 1
      apply go_congr
      intro other
      rw [List.mem_append, List.mem_append, List.mem_cons, List.mem_cons, or_assoc, or_left_comm]

end Scope

namespace Gathering

variable {files : Files}

section

variable {α : Type} [Defined α] (context : Context) (table : Table α) (g : Gathering) (l : List α)

end

end Gathering

end Yang

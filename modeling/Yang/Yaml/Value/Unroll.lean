import Yang.Yaml.Value

/-!
This module contains values made of parts that name each other by number. A collection that is part of itself has no
tree, so its value is unrolled: within itself it is hollow from some depth on, and readers, who know it by its label, do
not look that deep.
-/

namespace Yang.Yaml

inductive Made where
  | leaf (value : Value)
  | sequence (items : List Nat)
  | mapping (entries : List (Nat × Nat))
  | set (items : List Nat)
  | pairs (entries : List (Nat × Nat))
  deriving Repr, Inhabited

namespace Made

def parts : Made → List Nat
  | leaf _ => []
  | sequence items => items
  | mapping entries => entries.flatMap (fun (k, v) => [k, v])
  | set items => items
  | pairs entries => entries.flatMap (fun (k, v) => [k, v])

def assemble (part : Nat → Value) (i : Nat) : Made → Value
  | leaf value => value
  | sequence items => .sequence (some i) (items.map part)
  | mapping entries => .mapping (some i) (entries.map (fun (k, v) => (part k, part v)))
  | set items => .set (items.map part)
  | pairs entries => .sequence (some i) (entries.map (fun (k, v) => .pair (part k) (part v)))

end Made

abbrev Values : Type := Array Value

namespace Values

def part (values : Values) (i : Nat) : Value :=
  values.getD i .null

def round (made : Array Made) (values : Values) (numbers : List Nat) : Values :=
  numbers.foldl (fun values i => values.setIfInBounds i ((made.getD i default).assemble values.part i)) values

def rounds (made : Array Made) (numbers : List Nat) (values : Values) : Nat → Values
  | 0 => values
  | count + 1 => rounds made numbers (round made values numbers) count

def unfinished (made : Array Made) (numbers : List Nat) : List Nat :=
  let late := numbers.foldl (fun (late : Array (Option Bool)) i =>
    let waits := (made.getD i default).parts.any (fun j => (late.getD j none).getD true)
    late.setIfInBounds i (some waits)) (Array.replicate made.size none)
  numbers.filter (fun i => late.getD i none == some true)

/--
How often values that are part of themselves are assembled. A reader enters a collection once for each of the seven
kinds of nodes, through a list each time, and then once more to quote it, before it has met all of them.
-/
def depth (count : Nat) : Nat :=
  16 * count + 4

def unroll (made : Array Made) (numbers : List Nat) : Values :=
  let values := round made (Array.replicate made.size .null) numbers
  match unfinished made numbers with
  | [] => values
  | rest => rounds made rest values (depth rest.length)

end Values

end Yang.Yaml

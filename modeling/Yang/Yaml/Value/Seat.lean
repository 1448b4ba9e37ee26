import Yang.Yaml.Value

/-!
This module contains the order in which the numbers of a set are read. They take seats in a ring, each of them the first
free seat on a way that its residue lays down, and are read from the first seat to the last. Equal numbers have equal
residues, so the order does not depend on how a number is written.
-/

namespace Yang.Yaml.Seat

def modulus : Nat :=
  (1 <<< 61) - 1

def signed (negative : Bool) (magnitude : Nat) : Int :=
  let residue : Int := (magnitude % modulus : Nat)
  if negative then (if residue = 1 then -2 else -residue) else residue

def residue? (value : Value) : Option Int :=
  match value with
  | .real (.finite negative significand exponent) =>
    -- the modulus is one below two to the 61st
    some (signed negative (significand <<< (exponent % 61).toNat))
  | .real (.infinite negative) => some (signed negative 314159)
  | value => value.whole?.map (fun n => signed (n < 0) n.natAbs)

def seats (count : Nat) : Nat :=
  if count < 5 then 8 else 1 <<< (Nat.log2 (2 * count) + 1)

def near (size place : Nat) : List Nat :=
  if place + 9 < size then (List.range 10).map (place + ·) else [place]

def free? (isTaken : Nat → Bool) (size place left : Nat) : Nat → Option Nat
  | 0 => none
  | steps + 1 =>
    match (near size place).find? (fun seat => !isTaken seat) with
    | some seat => some seat
    | none =>
      let left := left >>> 5
      free? isTaken size ((place * 5 + 1 + left) % size) left steps

/--
Seat a number in a ring. After thirteen steps nothing is left of its residue, and then its way leads to all seats.
-/
def seat {α : Type} (ring : Array (Option α)) (residue : Int) (a : α) : Array (Option α) :=
  let size := ring.size
  let word := (residue % (1 <<< 64)).toNat
  match free? (fun i => (ring.getD i none).isSome) size (word % size) word (size + 13) with
  | some i => ring.setIfInBounds i (some a)
  | none => ring

def order {α : Type} (residues : List (Int × α)) : List α :=
  let ring := residues.foldl (fun ring (residue, a) => seat ring residue a)
    (Array.replicate (seats residues.length) none)
  ring.toList.filterMap id

end Yang.Yaml.Seat

import Yang.Number.Binary64
import Yang.Text.Digits

/-!
This module contains the shortest decimal text of a double precision number: the fewest digits that read
back as the same number, and of those the nearest.
-/

namespace Yang.Binary64

/--
The significand of the bounds of the numbers that round to a positive finite one, in quarters of its last
place: the distance below a power of two is half the distance above it.
-/
def lowerQuarters (significand : Nat) (exponent : Int) : Nat :=
  if significand = 1 <<< 52 ∧ -1074 < exponent then 4 * significand - 1 else 4 * significand - 2

def leadingPlace (num den : Nat) : Int :=
  if den ≤ num then
    ((Nat.toDigits 10 (num / den)).length : Int) - 1
  else
    match (List.range 400).find? (fun j => den ≤ num * Nat.pow 10 (j + 1)) with
    | some j => -((j : Int) + 1)
    | none => -400

def onGrid? (significand : Nat) (exponent place : Int) : Option Nat :=
  let a := Nat.pow 10 (-place).toNat <<< (exponent - 2).toNat
  let b := Nat.pow 10 place.toNat <<< (2 - exponent).toNat
  let value := 4 * significand * a
  let low := lowerQuarters significand exponent * a
  let high := (4 * significand + 2) * a
  let readsBack (c : Nat) : Bool :=
    if significand % 2 = 0 then low ≤ c * b && c * b ≤ high else low < c * b && c * b < high
  let c := value / b
  match readsBack c, readsBack (c + 1) with
  | false, false => none
  | true, false => some c
  | false, true => some (c + 1)
  -- both neighbours read back, so the nearer one counts
  | true, true =>
    if 2 * value < (2 * c + 1) * b then some c
    else if (2 * c + 1) * b < 2 * value then some (c + 1)
    else if c % 2 = 0 then some c
    else some (c + 1)

def shortest (significand : Nat) (exponent : Int) : Nat × Int :=
  let num := significand <<< exponent.toNat
  let den := 1 <<< (-exponent).toNat
  let first := leadingPlace num den
  let found := (List.range 17).findSome? (fun (n : Nat) =>
    let place := first - (n : Int)
    (onGrid? significand exponent place).map (fun c => (c, place)))
  found.getD (0, 0)

def pointed (digits : List Char) (point : Int) : String :=
  if -4 < point ∧ point ≤ 16 then
    if point ≤ 0 then
      "0." ++ String.ofList (List.replicate (-point).toNat '0' ++ digits)
    else if digits.length ≤ point.toNat then
      String.ofList (digits ++ List.replicate (point.toNat - digits.length) '0') ++ ".0"
    else
      String.ofList (digits.take point.toNat) ++ "." ++ String.ofList (digits.drop point.toNat)
  else
    let exponent := point - 1
    let mantissa :=
      match digits with
      | [] => ""
      | [d] => String.singleton d
      | d :: ds => String.singleton d ++ "." ++ String.ofList ds
    let sign := if exponent < 0 then "-" else "+"
    mantissa ++ "e" ++ sign ++ Text.decimal 2 exponent.natAbs

def text : Binary64 → String
  | nan => "nan"
  | infinite negative => if negative then "-inf" else "inf"
  | finite negative significand exponent =>
    let sign := if negative then "-" else ""
    if significand = 0 then
      sign ++ "0.0"
    else
      let (c, place) := shortest significand exponent
      let digits := Nat.toDigits 10 c
      let kept := (digits.reverse.dropWhile (· == '0')).reverse
      sign ++ pointed kept (digits.length + place)

end Yang.Binary64

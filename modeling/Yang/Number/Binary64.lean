/-!
This module contains double precision numbers in exact arithmetic: a sign, a significand below two to the
53rd, and an exponent of two that is never below -1074. Every operation computes its exact result as a
fraction and rounds it once, to the nearest number and to the even one of two that are equally near.
-/

namespace Yang

inductive Binary64 where
  | finite (negative : Bool) (significand : Nat) (exponent : Int)
  | infinite (negative : Bool)
  | nan
  deriving DecidableEq, Repr, Inhabited

namespace Binary64

def roundHalfEven (num den : Nat) : Nat :=
  let q := num / den
  let r := num % den
  if 2 * r < den ∨ (2 * r = den ∧ q % 2 = 0) then q else q + 1

def scaled (num den : Nat) (exponent : Int) : Nat × Nat :=
  (num <<< (-exponent).toNat, den <<< exponent.toNat)

def nearest (negative : Bool) (num den : Nat) : Binary64 :=
  if num = 0 then
    .finite negative 0 (-1074)
  else
    let guess : Int := (Nat.log2 num : Int) - (Nat.log2 den : Int) - 52
    let (n, d) := scaled num den guess
    -- the guess is right or one too great
    let exponent := max (-1074) (if n < d <<< 52 then guess - 1 else guess)
    let (n, d) := scaled num den exponent
    let significand := roundHalfEven n d
    -- rounding up may carry into one more place
    let (significand, exponent) :=
      if significand = 1 <<< 53 then (1 <<< 52, exponent + 1) else (significand, exponent)
    if 971 < exponent then .infinite negative else .finite negative significand exponent

def ofInt (n : Int) : Binary64 :=
  nearest (n < 0) n.natAbs 1

def ofDecimal (negative : Bool) (digits : Nat) (exponent : Int) : Binary64 :=
  let size : Int := (Nat.toDigits 10 digits).length + exponent
  if digits = 0 ∨ size < -330 then
    .finite negative 0 (-1074)
  else if 330 < size then
    .infinite negative
  else
    nearest negative (digits * Nat.pow 10 exponent.toNat) (Nat.pow 10 (-exponent).toNat)

def neg : Binary64 → Binary64
  | finite negative significand exponent => finite (!negative) significand exponent
  | infinite negative => infinite (!negative)
  | nan => nan

def signedAt (negative : Bool) (significand : Nat) (exponent least : Int) : Int :=
  let magnitude : Int := (significand <<< (exponent - least).toNat : Nat)
  if negative then -magnitude else magnitude

def add : Binary64 → Binary64 → Binary64
  | nan, _ => nan
  | _, nan => nan
  | infinite a, infinite b => if a = b then infinite a else nan
  | infinite a, finite .. => infinite a
  | finite .., infinite b => infinite b
  | finite na sa ea, finite nb sb eb =>
    let least := min ea eb
    let sum := signedAt na sa ea least + signedAt nb sb eb least
    -- a sum of zero is positive unless both terms are negative zeros
    if sum = 0 then
      finite (na && nb) 0 (-1074)
    else
      nearest (sum < 0) (sum.natAbs <<< least.toNat) (1 <<< (-least).toNat)

def mul : Binary64 → Binary64 → Binary64
  | nan, _ => nan
  | _, nan => nan
  | infinite a, infinite b => infinite (a != b)
  | infinite a, finite b s _ => if s = 0 then nan else infinite (a != b)
  | finite a s _, infinite b => if s = 0 then nan else infinite (a != b)
  | finite na sa ea, finite nb sb eb =>
    let exponent := ea + eb
    nearest (na != nb) ((sa * sb) <<< exponent.toNat) (1 <<< (-exponent).toNat)

def toInt? : Binary64 → Option Int
  | finite negative significand exponent =>
    let den := 1 <<< (-exponent).toNat
    if significand % den = 0 then
      let magnitude : Int := ((significand <<< exponent.toNat) / den : Nat)
      some (if negative then -magnitude else magnitude)
    else
      none
  | _ => none

def isZero : Binary64 → Bool
  | finite _ 0 _ => true
  | _ => false

def sameValue : Binary64 → Binary64 → Bool
  | nan, _ => false
  | _, nan => false
  | x, y => (x.isZero && y.isZero) || x == y

end Binary64

end Yang

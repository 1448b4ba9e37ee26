import Yang.Number.Binary64
import Yang.Text.Blank
import Yang.Text.Digits
import Yang.Text.Quoted

/-!
This module contains the reading of number literals: whole numbers in a base and decimal fractions. Spaces around a
literal and a sign before it are part of every grammar here, and the digits may be those of any script. Whole numbers
with too many decimal digits are neither read nor written.
-/

namespace Yang.Literal

def digitLimit : Nat := 4300

def digitBound : Nat := Nat.pow 10 digitLimit

def wholeText? (n : Int) : Option String :=
  if n.natAbs < digitBound then some (toString n) else none

def plain (c : Char) : Char :=
  if c.toNat < 0x7F then c
  else if Text.isSpace c then ' '
  else
    match Text.digitValue? c with
    | some n => Text.hexDigit n
    | none => '?'

def body (literal : String) : List Char :=
  Text.trim Text.isSpace (literal.toList.map plain)

def sign : List Char → Bool × List Char
  | '-' :: rest => (true, rest)
  | '+' :: rest => (false, rest)
  | rest => (false, rest)

def dropMark (base : Nat) (cs : List Char) : List Char :=
  match cs with
  | '0' :: mark :: rest =>
    if (base = 16 ∧ (mark = 'x' ∨ mark = 'X')) ∨ (base = 8 ∧ (mark = 'o' ∨ mark = 'O'))
        ∨ (base = 2 ∧ (mark = 'b' ∨ mark = 'B')) then rest
    else cs
  | _ => cs

inductive Fault where
  | notWhole (base : Nat) (literal : String)
  | tooLong (digits : Nat)
  | notDecimal (literal : String)
  deriving DecidableEq, Repr, Inhabited

def limitWords : String :=
  "Exceeds the limit (4300 digits) for integer string conversion"

def limitHint : String :=
  "; use sys.set_int_max_str_digits() to increase the limit"

def Fault.message : Fault → String
  | notWhole base literal =>
    "invalid literal for int() with base " ++ toString base ++ ": "
      ++ String.ofList ((Text.quoted literal).toList.take 200)
  | tooLong digits => limitWords ++ ": value has " ++ toString digits ++ " digits" ++ limitHint
  | notDecimal literal => "could not convert string to float: " ++ Text.quoted literal

def whole (base : Nat) (literal : String) : Except Fault Int :=
  let (negative, rest) := sign (body literal)
  let digits := dropMark base rest
  let run := (digits.takeWhile Char.isDigit).length
  -- too many digits are noticed before what follows them
  if base = 10 ∧ digitLimit < run then
    .error (.tooLong run)
  else if digits.isEmpty then
    .error (.notWhole base literal)
  else
    match Text.digits? base digits with
    | none => .error (.notWhole base literal)
    | some n => .ok (if negative then -(n : Int) else n)

def spanDigits (cs : List Char) : List Char × List Char :=
  (cs.takeWhile Char.isDigit, cs.dropWhile Char.isDigit)

def exponent? (cs : List Char) : Option Int :=
  match cs with
  | [] => some 0
  | e :: rest =>
    if e = 'e' ∨ e = 'E' then
      let (negative, ds) := sign rest
      if ds.isEmpty then
        none
      else
        (Text.digits? 10 ds).map (fun n => if negative then -(n : Int) else n)
    else
      none

def decimal (literal : String) : Except Fault Binary64 :=
  let (negative, rest) := sign (body literal)
  let name := (String.ofList rest).toLower
  if name = "inf" ∨ name = "infinity" then
    .ok (.infinite negative)
  else if name = "nan" then
    .ok .nan
  else
    let (front, rest) := spanDigits rest
    let (back, rest) :=
      match rest with
      | '.' :: rest => spanDigits rest
      | _ => ([], rest)
    match Text.digits? 10 (front ++ back), exponent? rest with
    | some n, some e =>
      if front.isEmpty ∧ back.isEmpty then
        .error (.notDecimal literal)
      else
        .ok (Binary64.ofDecimal negative n (e - back.length))
    | _, _ => .error (.notDecimal literal)

end Yang.Literal

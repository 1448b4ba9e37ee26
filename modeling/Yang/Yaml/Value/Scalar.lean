import Yang.Text.Case
import Yang.Yaml.Tag
import Yang.Yaml.Value

/-!
This module contains the values of scalars: for every tag of the core language, the value that a text has under
it.
-/

namespace Yang.Yaml

inductive ScalarTag where
  | null
  | bool
  | int
  | float
  | binary
  | timestamp
  | str
  deriving DecidableEq, Repr, Inhabited

namespace ScalarTag

def literal {α : Type} (r : Except Literal.Fault α) : Except Fault α :=
  r.mapError (fun fault => .scalar (.literal fault))

def calendar {α : Type} (r : Except CalendarFault α) : Except Fault α :=
  r.mapError (fun fault => .scalar (.calendar fault))

def bare (text : String) : String :=
  String.ofList (text.toList.filter (· != '_'))

def signedBody (text : String) : Except Fault (Bool × List Char) :=
  match text.toList with
  | [] => .error (.scalar .emptyNumber)
  | '-' :: rest => .ok (true, rest)
  | '+' :: rest => .ok (false, rest)
  | cs => .ok (false, cs)

def intValue (text : String) : Except Fault Value := do
  let (negative, body) ← signedBody (bare text)
  let signed (n : Int) : Value := .int (if negative then -n else n)
  match body with
  | [] => .error (.scalar .emptyNumber)
  | ['0'] => return .int 0
  | '0' :: 'b' :: rest => signed <$> literal (Literal.whole 2 (String.ofList rest))
  | '0' :: 'x' :: rest => signed <$> literal (Literal.whole 16 (String.ofList rest))
  | '0' :: _ => signed <$> literal (Literal.whole 8 (String.ofList body))
  | _ =>
    if body.contains ':' then
      let parts ← (Text.pieces ':' body).mapM (fun p => literal (Literal.whole 10 (String.ofList p)))
      return signed (parts.foldl (fun acc part => acc * 60 + part) 0)
    else
      signed <$> literal (Literal.whole 10 (String.ofList body))

def sixtieths (parts : List Binary64) : Except Fault Binary64 := do
  let (sum, _) ← parts.reverse.foldlM (fun (sum, (base : Nat)) part =>
    match Binary64.ofInt base with
    | .infinite _ => .error (.scalar .sixtiethsRange)
    | base' => .ok (sum.add (part.mul base'), base * 60)) (Binary64.ofInt 0, 1)
  return sum

def nanName : List Char := ".nan".toList

def floatValue (text : String) : Except Fault Value := do
  let (negative, body) ← signedBody (Text.lower (bare text))
  let signed (x : Binary64) : Value := .real (if negative then x.neg else x)
  if body == ".inf".toList then
    return .real (.infinite negative)
  else if body == nanName then
    return .real .nan
  else if body.contains ':' then
    let parts ← (Text.pieces ':' body).mapM (fun p => literal (Literal.decimal (String.ofList p)))
    return signed (← sixtieths parts)
  else
    signed <$> literal (Literal.decimal (String.ofList body))

def isNamedNan (tag : ScalarTag) (text : String) : Bool :=
  tag == float && (signedBody (Text.lower (bare text))).toOption.any (fun (_, body) => body == nanName)

def sextet? (c : Char) : Option Nat :=
  if 'A' ≤ c ∧ c ≤ 'Z' then some (c.toNat - 65)
  else if 'a' ≤ c ∧ c ≤ 'z' then some (c.toNat - 71)
  else if '0' ≤ c ∧ c ≤ '9' then some (c.toNat + 4)
  else if c = '+' then some 62
  else if c = '/' then some 63
  else none

def sextets (made : List Nat) (pads : Nat) : List Char → List Nat × Bool
  | [] => (made.reverse, false)
  | c :: rest =>
    -- padding counts from the third character of a group on
    if c = '=' then
      if 2 ≤ made.length % 4 ∧ 4 ≤ made.length % 4 + pads + 1 then
        (made.reverse, true)
      else
        sextets made (if 2 ≤ made.length % 4 then pads + 1 else pads) rest
    else
      match sextet? c with
      | some n => sextets (n :: made) 0 rest
      | none => sextets made pads rest

def octetsOf : List Nat → List UInt8
  | a :: b :: c :: d :: rest =>
    UInt8.ofNat (a * 4 + b / 16) :: UInt8.ofNat (b * 16 + c / 4) :: UInt8.ofNat (c * 64 + d)
      :: octetsOf rest
  | [a, b, c] => [UInt8.ofNat (a * 4 + b / 16), UInt8.ofNat (b * 16 + c / 4)]
  | [a, b] => [UInt8.ofNat (a * 4 + b / 16)]
  | _ => []

def binaryValue (text : String) (line : Nat) : Except Fault Value :=
  match Text.Codec.ascii.unwritten? text with
  | some run => .error (.problem (.base64Text run) line)
  | none =>
    let (ns, closed) := sextets [] 0 text.toList
    if closed || ns.length % 4 == 0 then
      .ok (.octets (octetsOf ns))
    else if ns.length % 4 == 1 then
      .error (.problem (.base64Length ns.length) line)
    else
      .error (.problem .base64Padding line)

def stampOffset (s : Stamp) : Except Fault (Option Int) :=
  match s.offset with
  | some (negative, hours, minutes) =>
    let span : Int := hours * 60 + minutes
    let span := if negative then -span else span
    if span.natAbs < 1440 then .ok (some span) else calendar (.error (.offset span))
  | none => .ok (if s.utc then some 0 else none)

def microseconds (fraction : List Char) : Nat :=
  let digits := fraction.take 6
  (Text.digits? 10 (digits ++ List.replicate (6 - digits.length) '0')).getD 0

def timestampValue (text : String) : Except Fault Value :=
  match stamp? (formOf text).toList with
  | none => .error (.scalar .noTimestamp)
  | some s => do
    match s.time with
    | none => return .date (← calendar (Date.of s.year s.month s.day))
    | some (hour, minute, second) =>
      let offset ← stampOffset s
      let date ← calendar (Date.of s.year s.month s.day)
      let clock ← calendar (Clock.of hour minute second (microseconds s.fraction))
      return .moment ⟨date, clock, offset⟩

def value (tag : ScalarTag) (text : String) (line : Nat) : Except Fault Value :=
  match tag with
  | null => .ok .null
  | bool =>
    match truthWords.lookup (Text.lower text) with
    | some b => .ok (.bool b)
    | none => .error (.scalar (.noTruthValue (Text.lower text)))
  | int => intValue text
  | float => floatValue text
  | binary => binaryValue text line
  | timestamp => timestampValue text
  | str => .ok (.text text)

end ScalarTag

end Yang.Yaml

import Yang.Yaml.Event.Grammar
import Yang.Text.Blank

/-!
This module contains the tags that are found from the form of a scalar, and the grammar of days and moments.
-/

namespace Yang.Yaml

structure Stamp where
  year : Nat
  month : Nat
  day : Nat
  time : Option (Nat × Nat × Nat)
  fraction : List Char
  utc : Bool
  offset : Option (Bool × Nat × Nat)
  deriving DecidableEq, Repr, Inhabited

def isDigit (c : Char) : Bool :=
  '0' ≤ c && c ≤ '9'

def shortNumber? (least : Nat) (cs : List Char) : Option (Nat × List Char) :=
  let run := (cs.take 2).takeWhile isDigit
  if least ≤ run.length then
    (Text.digits? 10 run).map (fun n => (n, cs.drop run.length))
  else
    none

def stampOffset? (cs : List Char) : Option (Bool × Option (Bool × Nat × Nat)) :=
  match cs.dropWhile (fun c => c == ' ' || c == '\t') with
  | [] => if cs.isEmpty then some (false, none) else none
  | ['Z'] => some (true, none)
  | sign :: rest =>
    if sign == '-' || sign == '+' then do
      let (hours, rest) ← shortNumber? 1 rest
      match rest with
      | [] => some (false, some (sign == '-', hours, 0))
      | ':' :: rest =>
        let (minutes, rest) ← shortNumber? 2 rest
        if rest.isEmpty then some (false, some (sign == '-', hours, minutes)) else none
      | _ => none
    else
      none

def stampTime? (year month day : Nat) (cs : List Char) : Option Stamp := do
  let (hour, rest) ← shortNumber? 1 cs
  let rest ← expectColon rest
  let (minute, rest) ← shortNumber? 2 rest
  let rest ← expectColon rest
  let (second, rest) ← shortNumber? 2 rest
  let (fraction, rest) :=
    match rest with
    | '.' :: rest => (rest.takeWhile isDigit, rest.dropWhile isDigit)
    | _ => ([], rest)
  let (utc, offset) ← stampOffset? rest
  return ⟨year, month, day, some (hour, minute, second), fraction, utc, offset⟩
where
  expectColon : List Char → Option (List Char)
    | ':' :: rest => some rest
    | _ => none

def stamp? (cs : List Char) : Option Stamp := do
  let digits := (cs.take 4).takeWhile isDigit
  if digits.length != 4 then
    none
  else
    let year ← Text.digits? 10 digits
    let rest ← expectDash (cs.drop 4)
    let (month, rest) ← shortNumber? 1 rest
    let rest ← expectDash rest
    let (day, rest) ← shortNumber? 1 rest
    match rest with
    | [] => return ⟨year, month, day, none, [], false, none⟩
    | c :: more =>
      if c == 'T' || c == 't' then
        stampTime? year month day more
      else if c == ' ' || c == '\t' then
        stampTime? year month day (more.dropWhile (fun c => c == ' ' || c == '\t'))
      else
        none
where
  expectDash : List Char → Option (List Char)
    | '-' :: rest => some rest
    | _ => none

def isStamp (cs : List Char) : Bool :=
  match stamp? cs with
  | some s => s.time.isSome || cs.length == 10
  | none => false

def truthWords : List (String × Bool) :=
  [("yes", true), ("no", false), ("true", true), ("false", false), ("on", true), ("off", false)]

def casings (word : String) : List String :=
  [word, word.capitalize, word.toUpper]

def unsigned (cs : List Char) : List Char :=
  match cs with
  | '-' :: rest => rest
  | '+' :: rest => rest
  | _ => cs

def isDigitRun (base : Nat) (cs : List Char) : Bool :=
  !cs.isEmpty && cs.all (fun c => c == '_' || (Text.hexValue? c).any (· < base))

def isDecimalRun (cs : List Char) : Bool :=
  match cs with
  | [] => false
  | c :: rest => isDigit c && rest.all (fun d => isDigit d || d == '_')

def isSixtieth (cs : List Char) : Bool :=
  match cs with
  | [c] => isDigit c
  | [c, d] => '0' ≤ c && c ≤ '5' && isDigit d
  | _ => false

def isWhole (cs : List Char) : Bool :=
  let body := unsigned cs
  match body with
  | '0' :: 'b' :: rest => isDigitRun 2 rest
  | '0' :: 'x' :: rest => isDigitRun 16 rest
  | ['0'] => true
  | '0' :: rest => isDigitRun 8 rest
  | _ =>
    match Text.pieces ':' body with
    | first :: sixtieths => isDecimalRun first && sixtieths.all isSixtieth
    | [] => false

def isSignedExponent (cs : List Char) : Bool :=
  match cs with
  | [] => true
  | e :: sign :: digits =>
    (e == 'e' || e == 'E') && (sign == '-' || sign == '+') && !digits.isEmpty && digits.all isDigit
  | _ => false

def isFraction (cs : List Char) : Bool :=
  let body := unsigned cs
  let front := body.takeWhile (· != '.')
  let back := body.drop (front.length + 1)
  let tail := back.dropWhile (fun c => isDigit c || c == '_')
  if !body.contains '.' then
    false
  else if front.isEmpty then
    ["inf", "Inf", "INF"].contains (String.ofList back)
      || (cs == body && (["nan", "NaN", "NAN"].contains (String.ofList back)
        || ((back.head?.any isDigit) && isSignedExponent tail)))
  else
    (isDecimalRun front && isSignedExponent tail)
      || (tail.isEmpty && match Text.pieces ':' front with
        | first :: sixtieths => isDecimalRun first && !sixtieths.isEmpty && sixtieths.all isSixtieth
        | [] => false)

def formOf (text : String) : String :=
  let cs := text.toList
  -- a line feed at the end does not count, unless it is all there is
  if cs.getLast? = some '\n' ∧ cs ≠ ['\n'] then String.ofList cs.dropLast else text

def implicitName (scalar : String) : String :=
  let text := formOf scalar
  let cs := text.toList
  if truthWords.any (fun (word, _) => (casings word).contains text) then "bool"
  else if isFraction cs then "float"
  else if isWhole cs then "int"
  else if text == "<<" then "merge"
  else if text == "" || text == "~" || (casings "null").contains text then "null"
  else if isStamp cs then "timestamp"
  else if text == "=" then "value"
  else if text == "!" || text == "&" || text == "*" then "yaml"
  else "str"

end Yang.Yaml

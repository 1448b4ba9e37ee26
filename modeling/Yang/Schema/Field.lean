import Yang.Schema.Issue
import Yang.Text.Blank
import Yang.Text.Surrogate
import Yang.Text.Utf8
import Yang.Yaml.Value

/-!
This module contains the readers of single fields: texts, names, truth values, whole numbers, words of a
closed choice, and lists. A value that is not of the kind of its field is converted where its meaning is clear.
-/

namespace Yang.Field

open Yang.Yaml (Value)

def text : Value → Checked String
  | .text s => .good s
  | .octets bytes =>
    match Text.Utf8.decode bytes with
    | .ok s => .good s
    | .error _ => .fail .notUnicode
  | _ => .fail .notText

def unbroken (s : String) : Checked String :=
  if Text.isBroken s then .fail .notUnicode else .good s

def opensName (c : Char) : Bool :=
  c.isAlpha || c == '_'

def continuesName (c : Char) : Bool :=
  c.isAlphanum || c == '_' || c == '.' || c == '-'

def isIdentifier (s : String) : Bool :=
  match s.toList with
  | [] => false
  | c :: rest => opensName c && rest.all continuesName

def identifier (value : Value) : Checked String :=
  ((text value).andThen unbroken).whenGood (fun s => if isIdentifier s then none else some .notIdentifier)

/--
The value that stands for a scalar where a text is asked for: truth values, numbers and dates become texts, and
every other value stands for itself.
-/
def scalarText : Value → Value
  | .bool b => .text (if b then "true" else "false")
  | .int n => .text (toString n)
  | .real x => .text x.text
  | .date d => .text d.text
  | .moment m => .text (m.text "T")
  | value => value

def anyText (value : Value) : Checked String :=
  match value with
  | .int n =>
    match Literal.wholeText? n with
    | some s => .good s
    | none => .fail .tooManyDigits
  | value => text (scalarText value)

def truthWords : List (String × Bool) :=
  [("0", false), ("off", false), ("f", false), ("false", false), ("n", false), ("no", false),
    ("1", true), ("on", true), ("t", true), ("true", true), ("y", true), ("yes", true)]

def truthValue (s : String) : Checked Bool :=
  match truthWords.lookup (s.map Char.toLower) with
  | some b => .good b
  | none => .fail .notTruthWord

def wordBound : Int := 9223372036854775808

def fitsWord (n : Int) : Bool :=
  -wordBound ≤ n && n < wordBound

def truthOfInt (n : Int) : Checked Bool :=
  if n = 0 then .good false
  else if n = 1 then .good true
  else if fitsWord n then .fail .notTruthWord
  else .fail .notBool

def truth : Value → Checked Bool
  | .bool b => .good b
  | .int n => truthOfInt n
  | .real x =>
    match x.toInt? with
    | some n => if -wordBound < n ∧ n < wordBound then truthOfInt n else .fail .notBool
    | none => .fail .notBool
  | .text s => (unbroken s).andThen truthValue
  | .octets bytes =>
    match Text.Utf8.decode bytes with
    | .ok s => truthValue s
    | .error _ => .fail .notTruthWord
  | _ => .fail .notBool

def plainMagnitude (cs : List Char) : Except Complaint Nat :=
  match cs with
  | [] => .error .notWholeText
  | ['0'] => .ok 0
  | '0' :: _ => .error .notWholeText
  | cs =>
    if Literal.digitLimit < (cs.takeWhile Char.isDigit).length then .error .tooLarge
    else
      match Text.digits? 10 cs with
      | some n => .ok n
      | none => .error .notWholeText

def plainWhole (cs : List Char) : Except Complaint Int :=
  match cs with
  | '-' :: rest => (fun n => -(n : Int)) <$> plainMagnitude rest
  | _ => Int.ofNat <$> plainMagnitude cs

def dropZeros? (cs : List Char) : Option (List Char) :=
  match cs with
  | [] => none
  | '0' :: rest => go '0' rest
  | c :: _ => if c.isDigit || c == '-' then some cs else none
where
  go (last : Char) : List Char → Option (List Char)
    | [] => some [last]
    | c :: rest =>
      if c == '0' || c == '_' then go c rest
      else if c.isDigit || c == '-' then some (c :: rest)
      -- a zero before a point stays
      else if c == '.' then some (last :: c :: rest)
      else none

def dropFraction? (cs : List Char) : Option (List Char) :=
  match cs.dropWhile (· != '.') with
  | [] => some cs
  | _ :: zeros =>
    if zeros ≠ [] ∧ zeros.all (· == '0') then some (cs.takeWhile (· != '.')) else none

def dropMarks? (cs : List Char) : Option (List Char) :=
  if (Text.pieces '_' cs).any List.isEmpty then none else some (cs.filter (· != '_'))

def plainForm? (cs : List Char) : Option (List Char) :=
  match Text.trim Text.isSpace cs with
  | '+' :: '-' :: _ => none
  | '+' :: rest => body? rest
  | '-' :: rest => ('-' :: ·) <$> body? rest
  | cs => body? cs
where
  body? (cs : List Char) : Option (List Char) := do
    dropMarks? (← dropFraction? (← dropZeros? cs))

def wholeOfText (s : String) : Checked Int :=
  match plainWhole s.toList with
  | .ok n => .good n
  | .error .tooLarge => .fail .tooLarge
  | .error _ =>
    match (plainForm? s.toList).map plainWhole with
    | none => .fail .notWholeText
    | some (.ok n) => .good n
    | some (.error complaint) => .fail complaint

def whole : Value → Checked Int
  | .bool b => .good (if b then 1 else 0)
  | .int n => .good n
  | .real (.finite negative significand exponent) =>
    match Binary64.toInt? (.finite negative significand exponent) with
    | none => .fail .fractional
    | some n => if -wordBound < n ∧ n < wordBound then .good n else .fail .tooLarge
  | .real _ => .fail .notFinite
  | .text s => (unbroken s).andThen wholeOfText
  | .octets bytes =>
    match Text.Utf8.decode bytes with
    | .ok s => wholeOfText s
    | .error _ => .fail .notWholeText
  | _ => .fail .notWhole

def count (value : Value) : Checked Nat :=
  ((whole value).whenGood (fun n => if n < 0 then some .negative else none)).map Int.toNat

def positive (value : Value) : Checked Nat :=
  ((whole value).whenGood (fun n => if n ≤ 0 then some .notPositive else none)).map Int.toNat

def choice {α : Type} (words : List (String × α)) (value : Value) : Checked α :=
  let refused := Checked.fail (.notWord (words.map Prod.fst))
  match value with
  | .text s => (unbroken s).andThen fun s => ((words.lookup s).map Checked.good).getD refused
  | _ => refused

def orderedBy : Value → Checked OrderedBy :=
  choice [("system", .system), ("user", .user)]

def items? : Value → Option (List Value)
  | .sequence _ items => some items
  | .set items => some items
  | .pair first second => some [first, second]
  | _ => none

def listFrom {α : Type} (read : Value → Checked α) (index : Nat) : List Value → Checked (List α)
  | [] => .good []
  | item :: rest =>
    List.cons <$> (read item).under (toString index) <*> listFrom read (index + 1) rest

def list {α : Type} (read : Value → Checked α) (value : Value) : Checked (List α) :=
  match items? value with
  | some items => listFrom read 0 items
  | none => .fail .notList

def optional {α : Type} (read : Value → Checked α) : Value → Checked (Option α)
  | .null => .good none
  | value => (read value).map some

end Yang.Field

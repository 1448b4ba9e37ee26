import Yang.Calendar
import Yang.Number.Literal
import Yang.Number.Shortest
import Yang.Text.Quoted

/-!
This module contains the values that documents are made of, and how they are written in messages.
-/

namespace Yang.Yaml

/--
A value. A collection that may contain itself has a label, which is the same wherever the collection stands. The
entries of a mapping have different keys, in the order in which the keys first came.
-/
inductive Value where
  | null
  | bool (b : Bool)
  | int (n : Int)
  | real (x : Binary64)
  | text (s : String)
  | octets (bytes : List UInt8)
  | date (d : Date)
  | moment (m : Moment)
  | sequence (label : Option Nat) (items : List Value)
  | pair (first second : Value)
  | set (items : List Value)
  | mapping (label : Option Nat) (entries : List (Value × Value))
  deriving Repr, Inhabited

namespace Value

def whole? : Value → Option Int
  | bool b => some (if b then 1 else 0)
  | int n => some n
  | real x => x.toInt?
  | _ => none

def sameKey (a b : Value) : Bool :=
  match a.whole?, b.whole? with
  | some m, some n => m == n
  | none, none =>
    match a, b with
    | null, null => true
    | real x, real y => x.sameValue y
    | text s, text t => s == t
    | octets s, octets t => s == t
    | date d, date e => d == e
    | moment d, moment e => d.isSame e
    | _, _ => false
  | _, _ => false

def isKey : Value → Bool
  | sequence .. => false
  | set _ => false
  | mapping .. => false
  | _ => true

def isPresent : Value → Bool
  | null => false
  | bool b => b
  | int n => n != 0
  | real x => !x.isZero
  | text s => s != ""
  | octets bytes => !bytes.isEmpty
  | sequence _ items => !items.isEmpty
  | set items => !items.isEmpty
  | mapping _ entries => !entries.isEmpty
  | _ => true

def field? (name : String) : List (Value × Value) → Option Value
  | [] => none
  | (text key, value) :: rest => if key = name then some value else field? name rest
  | _ :: rest => field? name rest

def truthWord (b : Bool) : String :=
  if b then "True" else "False"

def quotedOffset : Option Int → List String
  | none => []
  | some 0 => ["tzinfo=datetime.timezone.utc"]
  | some minutes => ["tzinfo=datetime.timezone(" ++ spanText minutes ++ ")"]

def quotedMoment (m : Moment) : String :=
  let d := m.date
  let c := m.clock
  let fine :=
    if c.microsecond ≠ 0 then [toString c.second, toString c.microsecond]
    else if c.second ≠ 0 then [toString c.second]
    else []
  let parts := [toString d.year, toString d.month, toString d.day, toString c.hour, toString c.minute]
    ++ fine ++ quotedOffset m.offset
  "datetime.datetime(" ++ ", ".intercalate parts ++ ")"

def quotedDate (d : Date) : String :=
  "datetime.date(" ++ ", ".intercalate [toString d.year, toString d.month, toString d.day] ++ ")"

def isInside (inside : List Nat) (label : Option Nat) : Bool :=
  label.any inside.contains

def enter (inside : List Nat) (label : Option Nat) : List Nat :=
  label.toList ++ inside

mutual

def quotedWithin? (inside : List Nat) (value : Value) : Option String :=
  match value with
  | null => some "None"
  | bool b => some (truthWord b)
  | int n => Literal.wholeText? n
  | real x => some x.text
  | text s => some (Text.quoted s)
  | octets bytes => some (Text.quotedOctets bytes)
  | date d => some (quotedDate d)
  | moment m => some (quotedMoment m)
  | sequence label items =>
    if isInside inside label then
      some "[...]"
    else
      (quotedItems? (enter inside label) items).map fun parts => "[" ++ ", ".intercalate parts ++ "]"
  | pair first second => do
    let first ← quotedWithin? inside first
    let second ← quotedWithin? inside second
    return "(" ++ first ++ ", " ++ second ++ ")"
  | set items =>
    if items.isEmpty then
      some "set()"
    else
      (quotedItems? inside items).map fun parts => "\x7b" ++ ", ".intercalate parts ++ "\x7d"
  | mapping label entries =>
    if isInside inside label then
      some "\x7b...\x7d"
    else
      (quotedEntries? (enter inside label) entries).map fun parts =>
        "\x7b" ++ ", ".intercalate parts ++ "\x7d"

def quotedItems? (inside : List Nat) (items : List Value) : Option (List String) :=
  match items with
  | [] => some []
  | item :: rest => do
    let item ← quotedWithin? inside item
    return item :: (← quotedItems? inside rest)

def quotedEntries? (inside : List Nat) (entries : List (Value × Value)) : Option (List String) :=
  match entries with
  | [] => some []
  | (key, value) :: rest => do
    let key ← quotedWithin? inside key
    let value ← quotedWithin? inside value
    return (key ++ ": " ++ value) :: (← quotedEntries? inside rest)

end

def kindName : Value → String
  | null => "NoneType"
  | bool _ => "bool"
  | int _ => "int"
  | real _ => "float"
  | text _ => "str"
  | octets _ => "bytes"
  | date _ => "date"
  | moment _ => "datetime"
  | sequence .. => "list"
  | pair .. => "tuple"
  | set _ => "set"
  | mapping .. => "dict"

def noKeyWords (value : Value) : String :=
  "unhashable type: '" ++ value.kindName ++ "'"

def placeholder (value : Value) : String :=
  "<unprintable " ++ value.kindName ++ " object>"

def quoted (value : Value) : String :=
  (quotedWithin? [] value).getD value.placeholder

def words? : Value → Option String
  | text s => some s
  | date d => some d.text
  | moment m => some (m.text " ")
  | value => quotedWithin? [] value

def words (value : Value) : String :=
  value.words?.getD value.placeholder

end Value

end Yang.Yaml

import Yang.Number.Literal
import Yang.Schema.Basic

/-!
This module contains what can be wrong with the data of a document, and the collecting of everything that is
wrong with it.
-/

namespace Yang

inductive Complaint where
  | missing
  | extra
  | keyNotText
  | notText
  | notUnicode
  | notIdentifier
  | notBool
  | notTruthWord
  | notWhole
  | notWholeText
  | fractional
  | notFinite
  | tooLarge
  | negative
  | notPositive
  | notWord (words : List String)
  | notList
  | notModel (model : String)
  | notNode
  | noKind
  | unknownKind (kind : String)
  | recursion
  | tooManyDigits
  | boundsCrossed
  | relativeTarget (quoted : String)
  | notPath
  | frozen
  deriving DecidableEq, Repr, Inhabited

def alternatives (words : List String) : String :=
  let quotes := words.map (fun w => "'" ++ w ++ "'")
  match quotes.reverse with
  | [] => ""
  | [only] => only
  | last :: others => ", ".intercalate others.reverse ++ " or " ++ last

def Complaint.message : Complaint → String
  | missing => "Field required"
  | extra => "Extra inputs are not permitted"
  | keyNotText => "Keys should be strings"
  | notText => "Input should be a valid string"
  | notUnicode => "Input should be a valid string, unable to parse raw data as a unicode string"
  | notIdentifier => "String should match pattern '^[A-Za-z_][A-Za-z0-9_.-]*$'"
  | notBool => "Input should be a valid boolean"
  | notTruthWord => "Input should be a valid boolean, unable to interpret input"
  | notWhole => "Input should be a valid integer"
  | notWholeText => "Input should be a valid integer, unable to parse string as an integer"
  | fractional => "Input should be a valid integer, got a number with a fractional part"
  | notFinite => "Input should be a finite number"
  | tooLarge => "Unable to parse input string as an integer, exceeded maximum size"
  | negative => "Input should be greater than or equal to 0"
  | notPositive => "Input should be greater than 0"
  | notWord words => "Input should be " ++ alternatives words
  | notList => "Input should be a valid list"
  | notModel model => "Input should be a valid dictionary or instance of " ++ model
  | notNode => "Input should be a valid dictionary or object to extract fields from"
  | noKind => "Unable to extract tag using discriminator 'kind'"
  | unknownKind kind =>
    "Input tag '" ++ kind ++ "' found using 'kind' does not match any of the expected tags: "
      ++ ", ".intercalate (NodeKind.all.map (fun k => "'" ++ k.word ++ "'"))
  | recursion => "Recursion error - cyclic reference detected"
  | tooManyDigits => "Value error, " ++ Literal.limitWords ++ Literal.limitHint
  | boundsCrossed => "Value error, min-elements cannot exceed max-elements"
  | relativeTarget quoted => "Value error, augment target must be an absolute path: " ++ quoted
  | notPath => "Input is not a valid path for <class 'pathlib.Path'>"
  | frozen => "Instance is frozen"

structure Issue where
  path : List String
  complaint : Complaint
  deriving DecidableEq, Repr, Inhabited

def Issue.message (issue : Issue) : String :=
  let way := ".".intercalate issue.path
  if way = "" then issue.complaint.message else way ++ ": " ++ issue.complaint.message

def describeIssues (issues : List Issue) : String :=
  "; ".intercalate (issues.map Issue.message)

/--
A result, or everything that stands against one.
-/
inductive Checked (α : Type) where
  | good (result : α)
  | bad (issues : List Issue)
  deriving Repr, Inhabited

namespace Checked

def issues {α : Type} : Checked α → List Issue
  | good _ => []
  | bad issues => issues

def map {α β : Type} (f : α → β) : Checked α → Checked β
  | good a => good (f a)
  | bad issues => bad issues

def ap {α β : Type} : Checked (α → β) → Checked α → Checked β
  | good f, good a => good (f a)
  | good _, bad issues => bad issues
  | bad issues, good _ => bad issues
  | bad first, bad second => bad (first ++ second)

instance : Functor Checked where
  map := map

instance : Applicative Checked where
  pure := good
  seq f a := ap f (a ())

def fail {α : Type} (complaint : Complaint) : Checked α :=
  bad [⟨[], complaint⟩]

def under {α : Type} (part : String) : Checked α → Checked α
  | good a => good a
  | bad issues => bad (issues.map (fun issue => { issue with path := part :: issue.path }))

def andAlso {α : Type} (reading : Checked α) (more : List Issue) : Checked α :=
  match reading, more with
  | good a, [] => good a
  | good _, more => bad more
  | bad issues, more => bad (issues ++ more)

def whenGood {α : Type} (reading : Checked α) (check : α → Option Complaint) : Checked α :=
  match reading with
  | good a =>
    match check a with
    | none => good a
    | some complaint => fail complaint
  | bad issues => bad issues

def andThen {α β : Type} (reading : Checked α) (f : α → Checked β) : Checked β :=
  match reading with
  | good a => f a
  | bad issues => bad issues

@[simp]
theorem ap_eq_good {α β : Type} {f : Checked (α → β)} {a : Checked α} {b : β} :
    ap f a = good b ↔ ∃ g x, f = good g ∧ a = good x ∧ g x = b := by
  cases f <;> cases a <;> simp [ap]

@[simp]
theorem under_eq_good {α : Type} {part : String} {r : Checked α} {a : α} :
    r.under part = good a ↔ r = good a := by
  cases r <;> simp [under]

end Checked

end Yang

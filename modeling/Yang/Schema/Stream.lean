import Yang.Diagnostic
import Yang.Files
import Yang.Schema.Reader
import Yang.Yaml.Stream

/-!
This module contains the documents of a source. A source with one bad document has no documents at all.
-/

namespace Yang

open Yang.Yaml (Value)

/--
What ends all reading of sources: a scalar that stands for no value, or a path that cannot be looked at.
-/
inductive Breakdown where
  | scalar (fault : Yaml.ScalarFault)
  | path (fault : FileFault)
  deriving DecidableEq, Repr, Inhabited

def Breakdown.message : Breakdown → String
  | scalar fault => fault.message
  | path fault => fault.message

inductive Refusal where
  | problem (d : Diagnostic)
  | breakdown (cause : Breakdown)
  deriving DecidableEq, Repr, Inhabited

namespace Document

def calledName? (entries : Entries) : Option String :=
  match Value.field? "module" entries with
  | some value => if value.isPresent then value.words? else other
  | none => other
where
  other : Option String :=
    match Value.field? "submodule" entries with
    | some value => value.words?
    | none => some "None"

def ofReading (label word : String) (entries : Entries) : Checked Document → Except Refusal Document
  | .good document => .ok document
  | .bad issues =>
    match calledName? entries with
    | some name => .error (.problem ⟨label, .invalid word name issues⟩)
    -- the name has to be written for the problem to be told
    | none => .error (.breakdown (.scalar .tooManyDigits))

def ofValue (label : String) (value : Value) : Except Refusal Document :=
  match value with
  | .mapping _ entries =>
    if (Value.field? "module" entries).isSome then
      ofReading label "module" entries ((Module.read value).map main)
    else if (Value.field? "submodule" entries).isSome then
      ofReading label "submodule" entries ((Submodule.read value).map part)
    else
      .error (.problem ⟨label, .noHead⟩)
  | _ => .error (.problem ⟨label, .notMapping⟩)

def ofValues (source : String) (label : Nat → String) (index : Nat) :
    List Value → Except Refusal (List Document)
  | [] => .ok []
  | value :: rest => do
    let document ← ofValue (label index) value
    let more ← ofValues source label (index + 1) rest
    return document.withSource source :: more

def refuse (source : String) : Yaml.Fault → Refusal
  | .character code position => .problem ⟨source, .badCharacter code position⟩
  | .problem cause line => .problem ⟨source ++ ":" ++ toString (line + 1), .badYaml cause⟩
  | .scalar cause => .breakdown (.scalar cause)

/--
The documents of a text. Documents that are null do not count.
-/
def parse (text source : String) : Except Refusal (List Document) :=
  match Yaml.load text with
  | .error fault => .error (refuse source fault)
  | .ok values =>
    let values := values.filter (fun value => !(value matches .null))
    match values with
    | [] => .error (.problem ⟨source, .noDocuments⟩)
    | values =>
      let label (index : Nat) : String :=
        if values.length = 1 then source else source ++ "[" ++ toString index ++ "]"
      ofValues source label 0 values

end Document

end Yang

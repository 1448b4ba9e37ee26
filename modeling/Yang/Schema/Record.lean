import Yang.Schema.Field

/-!
This module contains the reading of mappings whose keys are known beforehand. A mapping may hold no other keys.
-/

namespace Yang

open Yang.Yaml (Value)

abbrev Entries : Type := List (Value × Value)

structure Key where
  spelled : String
  alternative : Option String
  deriving DecidableEq, Repr, Inhabited

instance : Coe String Key where
  coe s := ⟨s, none⟩

def plainKeys (names : List String) : List Key :=
  names.map (fun name => ⟨name, none⟩)

namespace Key

def used? (key : Key) (entries : Entries) : Option String :=
  (key.spelled :: key.alternative.toList).find? (fun s => (Value.field? s entries).isSome)

def find? (key : Key) (entries : Entries) : Option (String × Value) :=
  (key.used? entries).bind (fun s => (Value.field? s entries).map (fun v => (s, v)))

end Key

namespace Record

def keyWords : Value → String
  | .text s => s
  | .bool b => if b then "1" else "0"
  | value => value.quoted

def required {α : Type} (key : Key) (read : Value → Checked α) (entries : Entries) : Checked α :=
  match key.find? entries with
  | some (spelling, value) => (read value).under spelling
  | none => (Checked.fail .missing).under key.spelled

def withDefault {α : Type} (key : Key) (default : α) (read : Value → Checked α) (entries : Entries) :
    Checked α :=
  match key.find? entries with
  | some (spelling, value) => (read value).under spelling
  | none => .good default

def optional {α : Type} (key : Key) (read : Value → Checked α) (entries : Entries) :
    Checked (Option α) :=
  withDefault key none (Field.optional read) entries

def list {α : Type} (key : Key) (read : Value → Checked α) (entries : Entries) : Checked (List α) :=
  withDefault key [] (Field.list read) entries

def isBrokenKey : Value → Bool
  | .text s => Text.isBroken s
  | _ => false

def keyIssues (keys : List Key) (entries : Entries) : List Issue :=
  let used := keys.filterMap (fun key => key.used? entries)
  entries.filterMap fun (key, _) =>
    match key with
    | .text s => if used.contains s then none else some ⟨[s], .extra⟩
    | _ => some ⟨[keyWords key], .keyNotText⟩

def closed {α : Type} (keys : List Key) (entries : Entries) (reading : Checked α) : Checked α :=
  if entries.any (fun (key, _) => isBrokenKey key) then
    -- whatever else is wrong is not told
    .fail .notUnicode
  else
    reading.andAlso (keyIssues keys entries)

def read {α : Type} (model : String) (keys : List Key) (fields : Entries → Checked α) (value : Value) :
    Checked α :=
  match value with
  | .mapping _ entries => closed keys entries (fields entries)
  | _ => .fail (.notModel model)

end Record

end Yang

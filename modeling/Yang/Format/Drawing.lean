import Yang.Format.Label
import Yang.Format.Outline
import Yang.Text.Fold

/-!
This module contains the drawing of trees with guides from each entry to its children. What is wider than the drawing
goes on below itself, and what has no room at all is left out.
-/

namespace Yang.Drawing

def columns : Nat := 80

def labelled (first more : String) (depth : Nat) (label : String) : String :=
  let limit := columns - 4 * depth
  if limit = 0 then
    ""
  else
    match Text.Fold.lines limit (Label.shown label) with
    | [] => ""
    | line :: rest =>
      first ++ String.ofList line ++ "\n"
        ++ String.join (rest.map (fun l => more ++ String.ofList l ++ "\n"))

def label (head : EntryHead) : String :=
  let escaped := Label.escape head.describe
  if head.config then escaped else "[dim]" ++ escaped ++ "[/dim]"

mutual

def draw (guides : String) (depth : Nat) (isLast : Bool) (e : Entry) : String :=
  match e with
  | .mk head children =>
    let below := guides ++ if isLast then "    " else "│   "
    labelled (guides ++ if isLast then "└── " else "├── ") below depth (label head)
      ++ drawAll below (depth + 1) children

def drawAll (guides : String) (depth : Nat) (entries : List Entry) : String :=
  match entries with
  | [] => ""
  | e :: rest => draw guides depth rest.isEmpty e ++ drawAll guides depth rest

end

def drawTree (e : Entry) : String :=
  labelled "" "" 0 ("[bold]module[/bold] " ++ Label.escape e.name) ++ drawAll "" 1 e.inOrder.children

end Yang.Drawing

namespace Yang

def drawings (entries : List Entry) : List String :=
  entries.map Drawing.drawTree

end Yang

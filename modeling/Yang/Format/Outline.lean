import Yang.Entry
import Yang.Text.Blank

/-!
This module contains the three formats that write one line for each thing: the outline of a tree, the data paths in
it, and the types in use.
-/

namespace Yang

def EntryHead.describe (head : EntryHead) : String :=
  let name := head.qualifiedName
  let decorated :=
    match head.kind with
    | .leafList => "[]" ++ name
    | .list => "[" ++ " ".intercalate head.keys ++ "]" ++ name
    | .choice => "choice " ++ name
    | .case => "case " ++ name
    | _ => name
  " ".intercalate ((if head.config then "rw:" else "RO:") :: (head.type.map ResolvedType.name).toList ++ [decorated])

namespace Outline

def line (depth : Int) (s : String) : String :=
  Text.repeated depth.toNat "  " ++ s ++ "\n"

def comment (depth : Int) (description : Option String) : List String :=
  match description with
  | none => []
  | some s =>
    if s = "" then []
    else "\n" :: (Text.lines (Text.strip s)).map (fun l => line depth ("// " ++ l))

def header (head : EntryHead) : String :=
  if head.kind = .module then "module " ++ head.name else head.describe

mutual

def lines (depth : Int) (e : Entry) : List String :=
  match e with
  | .mk head children =>
    comment depth head.description
      ++ if head.kind.isLeaf then
          [line depth (header head)]
        else
          line depth (header head ++ " \x7b") :: linesOfAll (depth + 1) children ++ [line depth "\x7d"]

def linesOfAll (depth : Int) (entries : List Entry) : List String :=
  match entries with
  | [] => []
  | e :: rest => lines depth e ++ linesOfAll depth rest

end

end Outline

def Entry.outlineLines (depth : Int) (e : Entry) : List String :=
  Outline.lines depth e.inOrder

def Entry.outline (depth : Int) (e : Entry) : String :=
  String.join (e.outlineLines depth)

def outlineLines (entries : List Entry) : List String :=
  entries.flatMap (Entry.outlineLines 0)

def pathLine (v : Entry.Visit) : String :=
  (if v.head.config then "rw " else "RO ") ++ v.dataPath
    ++ String.join ((v.head.type.map (fun type => " " ++ type.name)).toList) ++ "\n"

def pathLinesOf (visits : List Entry.Visit) : List String :=
  (visits.filter (fun v => v.head.kind != .module && !v.head.kind.isGroup)).map pathLine

def pathLines (entries : List Entry) : List String :=
  entries.flatMap (fun e => pathLinesOf e.walk)

def Facet.line : Facet → String
  | text s => s
  | names list => "|".intercalate list

def ResolvedType.line (type : ResolvedType) : String :=
  let facets := type.facets.mergeSort (fun a b => decide (a.1 ≤ b.1))
  " -> ".intercalate (type.typedefs.drop 1 ++ [type.base])
    ++ String.join (facets.map (fun p => " " ++ p.1 ++ "=" ++ p.2.line))

def typesInUse (visits : List Entry.Visit) : List ResolvedType :=
  go [] (visits.filterMap (fun v => v.head.type))
where
  go (names : List String) : List ResolvedType → List ResolvedType
    | [] => []
    | type :: rest =>
      if names.contains type.name then go names rest else type :: go (type.name :: names) rest

def typeLinesOf (name : String) (visits : List Entry.Visit) : List String :=
  let used := (typesInUse visits).mergeSort (fun a b => decide (a.name ≤ b.name))
  ("module: " ++ name ++ "\n") :: used.map (fun type => "  " ++ type.name ++ ": " ++ type.line ++ "\n")

def typeLines (entries : List Entry) : List String :=
  entries.flatMap (fun e => typeLinesOf e.name e.walk)

end Yang

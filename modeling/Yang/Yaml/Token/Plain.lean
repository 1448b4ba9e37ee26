import Yang.Yaml.Cursor

/-!
This module contains the reading of plain scalars, the ones without quotes. Line breaks inside one are folded:
a single break becomes a space, and of several the first is dropped.
-/

namespace Yang.Yaml

namespace Cursor

def plainLength (flow : Bool) : List Char → Nat
  | [] => 0
  | ch :: rest =>
    let after := rest.headD endMark
    if isWide ch then 0
    else if ch == ':' && (isWide after || (flow && isFlowMark after)) then 0
    else if flow && (ch == '?' || isFlowMark ch) then 0
    else plainLength flow rest + 1
where
  isFlowMark (c : Char) : Bool :=
    c == ',' || c == '[' || c == ']' || c == '\x7b' || c == '\x7d'

def foldedBreaks (c : Cursor) : Nat → Option (List Char) × Cursor
  | 0 => (some [], c)
  | fuel + 1 =>
    if c.head == ' ' then
      foldedBreaks c.next fuel
    else if isBreak c.head then
      let (line, after) := c.lineBreak
      if after.atSeparator then
        (none, after)
      else
        let (more, last) := foldedBreaks after fuel
        (more.map (line ++ ·), last)
    else
      (some [], c)

def fold (first breaks : List Char) : List Char :=
  (if first != ['\n'] then first else if breaks.isEmpty then [' '] else []) ++ breaks

def plainBlanks (c : Cursor) : List Char × Bool × Cursor :=
  let (spaces, c) := c.span (· == ' ')
  if isBreak c.head then
    let (first, c) := c.lineBreak
    if c.atSeparator then
      ([], true, c)
    else
      match c.foldedBreaks (c.ahead + 1) with
      | (none, c) => ([], true, c)
      | (some breaks, c) => (fold first breaks, true, c)
  else
    (spaces, false, c)

def plainRuns (flow : Bool) (indent : Int) (pending : List Char) (crossed : Bool) (c : Cursor) :
    Nat → List Char × Bool × Cursor
  | 0 => ([], crossed, c)
  | fuel + 1 =>
    let length := if c.head == '#' then 0 else plainLength flow c.rest
    if length = 0 then
      ([], crossed, c)
    else
      let run := c.rest.take length
      let (blanks, crossed, after) := (c.skip length).plainBlanks
      if blanks.isEmpty || after.head == '#' || (!flow && (after.column : Int) < indent) then
        (pending ++ run, crossed, after)
      else
        let (more, crossed, last) := plainRuns flow indent blanks crossed after fuel
        (pending ++ run ++ more, crossed, last)

def plain (flow : Bool) (indent : Int) (c : Cursor) : String × Bool × Cursor :=
  let (cs, crossed, last) := c.plainRuns flow (indent + 1) [] false (c.ahead + 1)
  (String.ofList cs, crossed, last)

end Cursor

end Yang.Yaml

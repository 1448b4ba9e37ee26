import Yang.Yaml.Cursor

/-!
This module contains the reading of block scalars, whose text is a run of indented lines.
-/

namespace Yang.Yaml

inductive Chomping where
  | keep
  | drop
  | clip
  deriving DecidableEq, Repr, Inhabited

namespace Cursor

def indentationDigit (c : Cursor) : Except Fault (Option Nat × Cursor) :=
  let ch := c.head
  if ch.isDigit then
    if ch == '0' then c.refuse .zeroIndentation else .ok (some (ch.toNat - 48), c.next)
  else
    .ok (none, c)

def chompingMark (c : Cursor) : Option Chomping × Cursor :=
  if c.head == '+' then (some .keep, c.next)
  else if c.head == '-' then (some .drop, c.next)
  else (none, c)

def blockHeader (c : Cursor) : Except Fault (Chomping × Option Nat × Cursor) := do
  let (chomping, c) := c.chompingMark
  let (digit, c) ← c.indentationDigit
  let (chomping, c) :=
    if chomping.isNone && digit.isSome then c.chompingMark else (chomping, c)
  if !isGap c.head then
    c.refuse (.noBlockHeader c.head)
  else
    let c := c.skipWhile (· == ' ')
    let c := if c.head == '#' then c.skipWhile (!isLineClose ·) else c
    if !isLineClose c.head then
      c.refuse (.noLineEnd c.head)
    else
      return (chomping.getD .clip, digit, c.lineBreak.2)

def leadingBreaks (c : Cursor) : Nat → List Char × Nat × Cursor
  | 0 => ([], 0, c)
  | fuel + 1 =>
    if c.head == ' ' then
      let c := c.next
      let (breaks, widest, last) := leadingBreaks c fuel
      (breaks, max c.column widest, last)
    else if isBreak c.head then
      let (line, after) := c.lineBreak
      let (breaks, widest, last) := leadingBreaks after fuel
      (line ++ breaks, widest, last)
    else
      ([], 0, c)

def indentTo (c : Cursor) (column : Nat) : Cursor :=
  let spaces := (c.rest.takeWhile (· == ' ')).length
  c.skip (min spaces (column - c.column))

def emptyLines (column : Nat) (c : Cursor) : Nat → List Char × Cursor
  | 0 => ([], c)
  | fuel + 1 =>
    let c := c.indentTo column
    if isBreak c.head then
      let (line, after) := c.lineBreak
      let (more, last) := emptyLines column after fuel
      (line ++ more, last)
    else
      ([], c)

def blockLines (folded : Bool) (column : Nat) (breaks : List Char) (c : Cursor) :
    Nat → List Char × List Char × List Char × Cursor
  | 0 => ([], [], breaks, c)
  | fuel + 1 =>
    if c.column != column || c.head == endMark then
      ([], [], breaks, c)
    else
      let solid := c.head != ' ' && c.head != '\t'
      let (text, c) := c.span (!isLineClose ·)
      let (line, c) := c.lineBreak
      let (after, c) := emptyLines column c (c.ahead + 1)
      if c.column == column && c.head != endMark then
        let joint :=
          if folded && line == ['\n'] && solid && c.head != ' ' && c.head != '\t' then
            if after.isEmpty then [' '] else []
          else
            line
        let (more, last, trailing, c) := blockLines folded column after c fuel
        (breaks ++ text ++ joint ++ more, last, trailing, c)
      else
        (breaks ++ text, line, after, c)

def block (folded : Bool) (indent : Int) (c : Cursor) : Except Fault (String × Cursor) := do
  let (chomping, digit, c) ← c.next.blockHeader
  let least := (max 1 (indent + 1)).toNat
  let fuel := c.ahead + 1
  let (column, breaks, c) :=
    match digit with
    | some d =>
      let column := least + d - 1
      let (breaks, c) := emptyLines column c fuel
      (column, breaks, c)
    | none =>
      let (breaks, widest, c) := c.leadingBreaks fuel
      (max least widest, breaks, c)
  let (text, last, trailing, c) := c.blockLines folded column breaks fuel
  let ending :=
    match chomping with
    | .drop => []
    | .clip => last
    | .keep => last ++ trailing
  return (String.ofList (text ++ ending), c)

end Cursor

end Yang.Yaml

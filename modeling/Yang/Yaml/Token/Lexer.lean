import Yang.Yaml.Token.Block
import Yang.Yaml.Token.Properties
import Yang.Yaml.Token.Quoted

/-!
This module contains the cutting of a stream into tokens. A scalar, an alias or a collection may turn out to be
a key only when the colon behind it is seen, so tokens wait in a queue while the first of them may still get a
key mark in front.
-/

namespace Yang.Yaml

structure KeyPlace where
  token : Nat
  required : Bool
  index : Nat
  line : Nat
  column : Nat
  deriving Repr, Inhabited

/--
The state of the cutting: the position, the depth of flow collections, the queue and the count of tokens taken
from it, the open indentations, whether a key may begin here, and the possible keys by depth.
-/
structure Lexer where
  cursor : Cursor
  depth : Int
  queue : List Token
  taken : Nat
  indent : Int
  indents : List Int
  keyAllowed : Bool
  keys : List (Int × KeyPlace)
  finished : Bool
  deriving Repr, Inhabited

namespace Lexer

def start (cs : List Char) : Lexer where
  cursor := .start cs
  depth := 0
  queue := [⟨.streamStart, 0⟩]
  taken := 0
  indent := -1
  indents := []
  keyAllowed := true
  keys := []
  finished := false

def inFlow (l : Lexer) : Bool :=
  l.depth != 0

def push (l : Lexer) (mark : Mark) (line : Nat) : Lexer :=
  { l with queue := l.queue ++ [⟨mark, line⟩] }

def insertAt (l : Lexer) (number : Nat) (mark : Mark) (line : Nat) : Lexer :=
  -- numbers count from the beginning of the stream, places from the front of the queue
  let place := number - l.taken
  { l with queue := l.queue.take place ++ ⟨mark, line⟩ :: l.queue.drop place }

def dropStaleKeys (l : Lexer) : Except Fault Lexer :=
  -- a key stands on one line
  let stale (k : KeyPlace) : Bool :=
    k.line != l.cursor.line || 1024 < l.cursor.index - k.index
  if l.keys.any (fun (_, k) => stale k && k.required) then
    l.cursor.refuse .missingColon
  else
    .ok { l with keys := l.keys.filter (fun (_, k) => !stale k) }

def dropKey (l : Lexer) : Except Fault Lexer :=
  match l.keys.lookup l.depth with
  | some k =>
    if k.required then
      l.cursor.refuse .missingColon
    else
      .ok { l with keys := l.keys.filter (fun (d, _) => d != l.depth) }
  | none => .ok l

def noteKey (l : Lexer) : Except Fault Lexer :=
  if l.keyAllowed then do
    let required := !l.inFlow && l.indent == l.cursor.column
    let l ← l.dropKey
    let c := l.cursor
    let place : KeyPlace := ⟨l.taken + l.queue.length, required, c.index, c.line, c.column⟩
    return { l with keys := l.keys ++ [(l.depth, place)] }
  else
    .ok l

def unwind (l : Lexer) (column : Int) : Lexer :=
  if l.inFlow then
    l
  else
    close l.indents l.indent l
where
  close (outer : List Int) (indent : Int) (l : Lexer) : Lexer :=
    match outer with
    | [] => { l with indent := indent, indents := [] }
    | next :: more =>
      if column < indent then
        close more next (l.push .blockEnd l.cursor.line)
      else
        { l with indent := indent, indents := outer }

def indentAt (l : Lexer) (column : Nat) : Option Lexer :=
  if l.indent < column then
    some { l with indents := l.indent :: l.indents, indent := column }
  else
    none

def skipBlanks (l : Lexer) : Nat → Lexer
  | 0 => l
  | fuel + 1 =>
    let c := l.cursor.skipWhile (· == ' ')
    let c := if c.head == '#' then c.skipWhile (!isLineClose ·) else c
    if isBreak c.head then
      let l := { l with cursor := c.lineBreak.2, keyAllowed := l.keyAllowed || !l.inFlow }
      l.skipBlanks fuel
    else
      { l with cursor := c }

def skipToToken (l : Lexer) : Lexer :=
  let c := l.cursor
  let c := if c.index == 0 && c.head == '\uFEFF' then c.next else c
  { l with cursor := c }.skipBlanks (c.ahead + 1)

def takeEnd (l : Lexer) : Except Fault Lexer := do
  let l ← (l.unwind (-1)).dropKey
  return { l.push .streamEnd l.cursor.line with keyAllowed := false, keys := [], finished := true }

def takeDirective (l : Lexer) : Except Fault Lexer := do
  let l ← (l.unwind (-1)).dropKey
  let (content, c) ← l.cursor.directive
  return { l.push (.directive content) l.cursor.line with cursor := c, keyAllowed := false }

def takeSeparator (l : Lexer) (mark : Mark) : Except Fault Lexer := do
  let l ← (l.unwind (-1)).dropKey
  return { l.push mark l.cursor.line with cursor := l.cursor.skip 3, keyAllowed := false }

def takeFlowStart (l : Lexer) (mark : Mark) : Except Fault Lexer := do
  let l ← l.noteKey
  return { l.push mark l.cursor.line with
    cursor := l.cursor.next, depth := l.depth + 1, keyAllowed := true }

def takeFlowEnd (l : Lexer) (mark : Mark) : Except Fault Lexer := do
  let l ← l.dropKey
  return { l.push mark l.cursor.line with
    cursor := l.cursor.next, depth := l.depth - 1, keyAllowed := false }

def takeFlowEntry (l : Lexer) : Except Fault Lexer := do
  let l ← l.dropKey
  return { l.push .flowEntry l.cursor.line with cursor := l.cursor.next, keyAllowed := true }

def openBlock (l : Lexer) (mark : Mark) (otherwise : Problem) : Except Fault Lexer :=
  if l.inFlow then
    .ok l
  else if !l.keyAllowed then
    l.cursor.refuse otherwise
  else
    match l.indentAt l.cursor.column with
    | some l => .ok (l.push mark l.cursor.line)
    | none => .ok l

def takeBlockEntry (l : Lexer) : Except Fault Lexer := do
  let l ← l.openBlock .blockSequence .entryNotAllowed
  let l ← l.dropKey
  return { l.push .blockEntry l.cursor.line with cursor := l.cursor.next, keyAllowed := true }

def takeKey (l : Lexer) : Except Fault Lexer := do
  let l ← l.openBlock .blockMapping .keyNotAllowed
  let l ← l.dropKey
  return { l.push .key l.cursor.line with cursor := l.cursor.next, keyAllowed := !l.inFlow }

def takeValue (l : Lexer) : Except Fault Lexer := do
  let l ←
    match l.keys.lookup l.depth with
    | some k =>
      let l := { l with keys := l.keys.filter (fun (d, _) => d != l.depth), keyAllowed := false }
      -- the key has been cut off already, so its mark goes in front of its first token
      let l := l.insertAt k.token .key k.line
      if l.inFlow then
        pure l
      else
        match l.indentAt k.column with
        -- the mapping that the key opens stands in front of the mark of the key
        | some l => pure (l.insertAt k.token .blockMapping k.line)
        | none => pure l
    | none =>
      let l ← l.openBlock .blockMapping .valueNotAllowed
      let l := { l with keyAllowed := !l.inFlow }
      l.dropKey
  return { l.push .value l.cursor.line with cursor := l.cursor.next }

def takeProperty (l : Lexer) (read : Cursor → Except Fault (Mark × Cursor)) : Except Fault Lexer := do
  let l ← l.noteKey
  let (mark, c) ← read l.cursor
  return { l.push mark l.cursor.line with cursor := c, keyAllowed := false }

def takeBlock (l : Lexer) (folded : Bool) : Except Fault Lexer := do
  let l ← l.dropKey
  let (text, c) ← l.cursor.block folded l.indent
  return { l.push (.scalar text false) l.cursor.line with cursor := c, keyAllowed := true }

def takePlain (l : Lexer) : Except Fault Lexer := do
  let l ← l.noteKey
  let (text, crossed, c) := l.cursor.plain l.inFlow l.indent
  return { l.push (.scalar text true) l.cursor.line with cursor := c, keyAllowed := crossed }

def beginsPlain (flow : Bool) (c : Cursor) : Bool :=
  let ch := c.head
  let marks := ['-', '?', ':', ',', '[', ']', '\x7b', '\x7d', '#', '&', '*', '!', '|', '>', '\'', '"', '%',
    '@', '\x60']
  (!isWide ch && !marks.contains ch)
    || (!isWide (c.peek 1) && (ch == '-' || (!flow && (ch == '?' || ch == ':'))))

def fetch (l : Lexer) : Except Fault Lexer := do
  let l := l.skipToToken
  let l ← l.dropStaleKeys
  let l := l.unwind l.cursor.column
  let c := l.cursor
  let ch := c.head
  let gapBehind := isWide (c.peek 1)
  if ch == endMark then l.takeEnd
  else if ch == '%' && c.column == 0 then l.takeDirective
  else if ch == '-' && c.column == 0 && c.atMarker '-' then l.takeSeparator .documentStart
  else if ch == '.' && c.column == 0 && c.atMarker '.' then l.takeSeparator .documentEnd
  else if ch == '[' then l.takeFlowStart .flowSequence
  else if ch == '\x7b' then l.takeFlowStart .flowMapping
  else if ch == ']' then l.takeFlowEnd .flowSequenceEnd
  else if ch == '\x7d' then l.takeFlowEnd .flowMappingEnd
  else if ch == ',' then l.takeFlowEntry
  else if ch == '-' && gapBehind then l.takeBlockEntry
  else if ch == '?' && (l.inFlow || gapBehind) then l.takeKey
  else if ch == ':' && (l.inFlow || gapBehind) then l.takeValue
  else if ch == '*' then l.takeProperty (fun c => do
    let (name, c) ← c.anchorName
    return (.aliasOf name, c))
  else if ch == '&' then l.takeProperty (fun c => do
    let (name, c) ← c.anchorName
    return (.anchor name, c))
  else if ch == '!' then l.takeProperty (fun c => do
    let (handle, suffix, c) ← c.tag
    return (.tag handle suffix, c))
  else if ch == '|' && !l.inFlow then l.takeBlock false
  else if ch == '>' && !l.inFlow then l.takeBlock true
  else if ch == '\'' then l.takeProperty (fun c => do
    let (text, c) ← c.quoted false
    return (.scalar text false, c))
  else if ch == '"' then l.takeProperty (fun c => do
    let (text, c) ← c.quoted true
    return (.scalar text false, c))
  else if beginsPlain l.inFlow c then l.takePlain
  else c.refuse (.noToken ch)

def firstMayBeKey (l : Lexer) : Bool :=
  l.keys.any (fun (_, k) => k.token == l.taken)

def step (l : Lexer) : Except Fault (Option Token × Lexer) :=
  match l.queue with
  | [] => return (none, ← l.fetch)
  | first :: rest => do
    let l ← l.dropStaleKeys
    -- a colon further on may still put a mark in front of this token
    if l.firstMayBeKey then
      return (none, ← l.fetch)
    else
      return (some first, { l with queue := rest, taken := l.taken + 1 })

def run (l : Lexer) (made : List Token) : Nat → Produced Token
  | 0 => ⟨made.reverse, none⟩
  | fuel + 1 =>
    if l.finished then
      ⟨made.reverse ++ l.queue, none⟩
    else
      match l.step with
      | .error fault => ⟨made.reverse, some fault⟩
      | .ok (some token, l) => l.run (token :: made) fuel
      | .ok (none, l) => l.run made fuel

end Lexer

def tokens (cs : List Char) : Produced Token :=
  match firstRefused? cs with
  | some (code, position) => ⟨[], some (.character code position)⟩
  -- every round takes a token or reads a character, and no character makes more than four tokens
  | none => (Lexer.start cs).run [] (8 * cs.length + 32)

end Yang.Yaml

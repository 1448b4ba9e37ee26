import Yang.Yaml.Event

/-!
This module contains the grammar of streams: it turns tokens into events, one token ahead at a time. What is
still expected is kept on a stack, so that collections may be nested.
-/

namespace Yang.Yaml

inductive Expectation where
  | streamStart
  | firstDocument
  | document
  | documentContent
  | documentEnd
  | blockNode
  | blockEntry
  | indentlessEntry
  | blockKey
  | blockValue
  | flowEntry (first : Bool)
  | pairKey
  | pairValue
  | pairEnd
  | flowKey (first : Bool)
  | flowValue
  | flowMissingValue
  | nothing
  deriving DecidableEq, Repr, Inhabited

/--
The state of the grammar: the tokens ahead and the fault behind them, what is expected now and afterwards, and
the handles of the document.
-/
structure Grammar where
  ahead : Produced Token
  now : Expectation
  later : List Expectation
  handles : List (String × String)
  deriving Repr, Inhabited

def coreTag (name : String) : String :=
  "tag:yaml.org,2002:" ++ name

def defaultHandles : List (String × String) :=
  [("!", "!"), ("!!", coreTag "")]

namespace Grammar

def peek (g : Grammar) : Except Fault Token :=
  match g.ahead.items with
  | token :: _ => .ok token
  | [] =>
    match g.ahead.fault with
    | some fault => .error fault
    | none => .ok ⟨.streamEnd, 0⟩

def advance (g : Grammar) : Grammar :=
  { g with ahead := { g.ahead with items := g.ahead.items.tail } }

def expect (g : Grammar) (now : Expectation) : Grammar :=
  { g with now := now }

def afterwards (g : Grammar) (next : Expectation) : Grammar :=
  { g with later := next :: g.later }

def resume (g : Grammar) : Grammar :=
  match g.later with
  | [] => g.expect .nothing
  | next :: more => { g with now := next, later := more }

def refuse {α : Type} (token : Token) (cause : Problem) : Except Fault α :=
  .error (.problem cause token.line)

def missing (line : Nat) : Event :=
  ⟨.scalar none none true "", line⟩

structure Properties where
  anchor : Option String
  tag : Option (Option String × String)
  line : Option Nat
  tagLine : Nat

def properties (g : Grammar) : Except Fault (Properties × Grammar) := do
  let first ← g.peek
  match first.mark with
  | .anchor name =>
    let g := g.advance
    let second ← g.peek
    match second.mark with
    | .tag handle suffix => return (⟨some name, some (handle, suffix), some first.line, second.line⟩, g.advance)
    | _ => return (⟨some name, none, some first.line, first.line⟩, g)
  | .tag handle suffix =>
    let g := g.advance
    let second ← g.peek
    match second.mark with
    | .anchor name => return (⟨some name, some (handle, suffix), some first.line, first.line⟩, g.advance)
    | _ => return (⟨none, some (handle, suffix), some first.line, first.line⟩, g)
  | _ => return (⟨none, none, none, first.line⟩, g)

def expandTag (g : Grammar) (p : Properties) : Except Fault (Option String) :=
  match p.tag with
  | none => .ok none
  | some (none, suffix) => .ok (some suffix)
  | some (some handle, suffix) =>
    match g.handles.lookup handle with
    | some expansion => .ok (some (expansion ++ suffix))
    | none => .error (.problem (.undefinedHandle handle) p.tagLine)

def node (g : Grammar) (block indentless : Bool) : Except Fault (Event × Grammar) := do
  let first ← g.peek
  match first.mark with
  | .aliasOf name => return (⟨.aliasOf name, first.line⟩, g.advance.resume)
  | _ =>
    let (p, g) ← g.properties
    let tag ← g.expandTag p
    let token ← g.peek
    let line := p.line.getD token.line
    match token.mark with
    | .blockEntry =>
      if indentless then
        return (⟨.sequenceStart p.anchor tag, line⟩, g.expect .indentlessEntry)
      else
        bare g p tag token line
    | .scalar text plain =>
      -- the tag of no tag in particular leaves the text to decide, even between quotes
      let open_ := (plain && tag.isNone) || tag == some "!"
      return (⟨.scalar p.anchor tag open_ text, line⟩, g.advance.resume)
    | .flowSequence =>
      return (⟨.sequenceStart p.anchor tag, line⟩, g.advance.expect (.flowEntry true))
    | .flowMapping =>
      return (⟨.mappingStart p.anchor tag, line⟩, g.advance.expect (.flowKey true))
    | .blockSequence =>
      if block then
        return (⟨.sequenceStart p.anchor tag, line⟩, g.advance.expect .blockEntry)
      else
        bare g p tag token line
    | .blockMapping =>
      if block then
        return (⟨.mappingStart p.anchor tag, line⟩, g.advance.expect .blockKey)
      else
        bare g p tag token line
    | _ => bare g p tag token line
where
  bare (g : Grammar) (p : Properties) (tag : Option String) (token : Token) (line : Nat) :
      Except Fault (Event × Grammar) :=
    if p.anchor.isSome || tag.isSome then
      .ok (⟨.scalar p.anchor tag (tag.isNone || tag == some "!") "", line⟩, g.resume)
    else
      refuse token (.noContent token.mark.name)

def directives (g : Grammar) (version : Bool) (handles : List (String × String)) :
    Nat → Except Fault Grammar
  | 0 => .ok { g with handles := handles ++ defaultHandles }
  | fuel + 1 => do
    let token ← g.peek
    match token.mark with
    | .directive (.version major _) =>
      if version then
        refuse token .secondVersion
      else if major != 1 then
        refuse token .otherVersion
      else
        directives g.advance true handles fuel
    | .directive (.handle name expansion) =>
      if (handles.lookup name).isSome then
        refuse token (.secondHandle name)
      else
        directives g.advance version (handles ++ [(name, expansion)]) fuel
    | .directive (.reserved _) => directives g.advance version handles fuel
    | _ => return { g with handles := handles ++ defaultHandles }

def skipEnds (g : Grammar) : Nat → Except Fault Grammar
  | 0 => .ok g
  | fuel + 1 => do
    let token ← g.peek
    if token.mark == .documentEnd then skipEnds g.advance fuel else return g

def document (g : Grammar) : Except Fault (Event × Grammar) := do
  let fuel := g.ahead.items.length + 1
  let g ← g.skipEnds fuel
  let token ← g.peek
  if token.mark == .streamEnd then
    return (⟨.streamEnd, token.line⟩, g.advance.expect .nothing)
  else
    let g ← g.directives false [] fuel
    let mark ← g.peek
    if mark.mark == .documentStart then
      return (⟨.documentStart, token.line⟩, (g.advance.afterwards .documentEnd).expect .documentContent)
    else
      refuse mark (.noDocumentStart mark.mark.name)

def nodeUnless (g : Grammar) (line : Nat) (marks : List Mark) (block indentless : Bool)
    (next : Expectation) : Except Fault (Event × Grammar) := do
  let token ← g.peek
  if marks.contains token.mark then
    return (missing line, g.expect next)
  else
    (g.afterwards next).node block indentless

def step (g : Grammar) : Except Fault (Event × Grammar) := do
  let token ← g.peek
  let line := token.line
  match g.now with
  | .streamStart => return (⟨.streamStart, line⟩, g.advance.expect .firstDocument)
  | .firstDocument =>
    match token.mark with
    | .directive _ => g.document
    | .documentStart => g.document
    | .streamEnd => g.document
    | _ =>
      let g := { g with handles := defaultHandles }
      return (⟨.documentStart, line⟩, (g.afterwards .documentEnd).expect .blockNode)
  | .document => g.document
  | .documentContent =>
    match token.mark with
    | .directive _ => return (missing line, g.resume)
    | .documentStart => return (missing line, g.resume)
    | .documentEnd => return (missing line, g.resume)
    | .streamEnd => return (missing line, g.resume)
    | _ => g.node true false
  | .documentEnd =>
    let g := if token.mark == .documentEnd then g.advance else g
    return (⟨.documentEnd, line⟩, g.expect .document)
  | .blockNode => g.node true false
  | .blockEntry =>
    if token.mark == .blockEntry then
      g.advance.nodeUnless line [.blockEntry, .blockEnd] true false .blockEntry
    else if token.mark == .blockEnd then
      return (⟨.sequenceEnd, line⟩, g.advance.resume)
    else
      refuse token (.noBlockEnd token.mark.name)
  | .indentlessEntry =>
    if token.mark == .blockEntry then
      g.advance.nodeUnless line [.blockEntry, .key, .value, .blockEnd] true false .indentlessEntry
    else
      return (⟨.sequenceEnd, line⟩, g.resume)
  | .blockKey =>
    if token.mark == .key then
      g.advance.nodeUnless line [.key, .value, .blockEnd] true true .blockValue
    else if token.mark == .blockEnd then
      return (⟨.mappingEnd, line⟩, g.advance.resume)
    else
      refuse token (.noBlockEnd token.mark.name)
  | .blockValue =>
    if token.mark == .value then
      g.advance.nodeUnless line [.key, .value, .blockEnd] true true .blockKey
    else
      return (missing line, g.expect .blockKey)
  | .flowEntry first =>
    if token.mark == .flowSequenceEnd then
      return (⟨.sequenceEnd, line⟩, g.advance.resume)
    else if !first && token.mark != .flowEntry then
      refuse token (.noSequenceSeparator token.mark.name)
    else
      let g := if first then g else g.advance
      let token ← g.peek
      if token.mark == .key then
        return (⟨.mappingStart none none, token.line⟩, g.expect .pairKey)
      else if token.mark == .flowSequenceEnd then
        return (⟨.sequenceEnd, token.line⟩, g.advance.resume)
      else
        (g.afterwards (.flowEntry false)).node false false
  | .pairKey =>
    g.advance.nodeUnless line [.value, .flowEntry, .flowSequenceEnd] false false .pairValue
  | .pairValue =>
    if token.mark == .value then
      g.advance.nodeUnless line [.flowEntry, .flowSequenceEnd] false false .pairEnd
    else
      return (missing line, g.expect .pairEnd)
  | .pairEnd => return (⟨.mappingEnd, line⟩, g.expect (.flowEntry false))
  | .flowKey first =>
    if token.mark == .flowMappingEnd then
      return (⟨.mappingEnd, line⟩, g.advance.resume)
    else if !first && token.mark != .flowEntry then
      refuse token (.noMappingSeparator token.mark.name)
    else
      let g := if first then g else g.advance
      let token ← g.peek
      if token.mark == .key then
        g.advance.nodeUnless token.line [.value, .flowEntry, .flowMappingEnd] false false .flowValue
      else if token.mark == .flowMappingEnd then
        return (⟨.mappingEnd, token.line⟩, g.advance.resume)
      else
        (g.afterwards .flowMissingValue).node false false
  | .flowValue =>
    if token.mark == .value then
      g.advance.nodeUnless line [.flowEntry, .flowMappingEnd] false false (.flowKey false)
    else
      return (missing line, g.expect (.flowKey false))
  | .flowMissingValue => return (missing line, g.expect (.flowKey false))
  | .nothing => return (⟨.streamEnd, line⟩, g)

def run (g : Grammar) (made : List Event) : Nat → Produced Event
  | 0 => ⟨made.reverse, none⟩
  | fuel + 1 =>
    match g.step with
    | .error fault => ⟨made.reverse, some fault⟩
    | .ok (event, g) =>
      if event.what == .streamEnd then
        ⟨(event :: made).reverse, none⟩
      else
        g.run (event :: made) fuel

end Grammar

def events (ahead : Produced Token) : Produced Event :=
  let g : Grammar := ⟨ahead, .streamStart, [], []⟩
  -- no token makes more than four events
  g.run [] (4 * ahead.items.length + 16)

end Yang.Yaml

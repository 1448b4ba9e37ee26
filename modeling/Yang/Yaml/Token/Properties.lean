import Yang.Yaml.Token

/-!
This module contains the reading of the tokens that stand before content: directives, anchors, aliases and
tags.
-/

namespace Yang.Yaml

namespace Cursor

def anchorName (c : Cursor) : Except Fault (String × Cursor) := do
  let (name, c) := c.next.span isNameChar
  if name.isEmpty then
    c.refuse (.noName c.head)
  else if isWide c.head || ['?', ':', ',', ']', '\x7d', '%', '@', '\x60'].contains c.head then
    return (String.ofList name, c)
  else
    c.refuse (.noName c.head)

def isUriChar (c : Char) : Bool :=
  isNameChar c || [';', '/', '?', ':', '@', '&', '=', '+', '$', ',', '.', '!', '~', '*', '\'', '(', ')',
    '[', ']', '%'].contains c

def uriOctets (c : Cursor) : Nat → Except Fault (List UInt8 × Cursor)
  | 0 => .ok ([], c)
  | fuel + 1 => do
    if c.head != '%' then
      return ([], c)
    let c := c.next
    match Text.hexValue? (c.peek 0), Text.hexValue? (c.peek 1) with
    | some high, some low =>
      let (more, last) ← uriOctets (c.skip 2) fuel
      return (UInt8.ofNat (high * 16 + low) :: more, last)
    | none, _ => c.refuse (.uriEscape (c.peek 0))
    | _, none => c.refuse (.uriEscape (c.peek 1))

def uriChars (c : Cursor) : Nat → Except Fault (List Char × Cursor)
  | 0 => .ok ([], c)
  | fuel + 1 => do
    let (run, c) := c.span (fun ch => isUriChar ch && ch != '%')
    if c.head == '%' then
      let (octets, after) ← c.uriOctets (c.ahead + 1)
      match Text.Utf8.decode octets with
      | .error fault => c.refuse (.uriOctets fault)
      | .ok text =>
        let (more, last) ← uriChars after fuel
        return (run ++ text.toList ++ more, last)
    else
      return (run, c)

def uri (c : Cursor) : Except Fault (String × Cursor) := do
  if !isUriChar c.head then
    c.refuse (.noUri c.head)
  else
    let (cs, c) ← c.uriChars (c.ahead + 1)
    return (String.ofList cs, c)

def handle (c : Cursor) : Except Fault (String × Cursor) := do
  if c.head != '!' then
    c.refuse (.noHandle c.head)
  else if c.peek 1 == ' ' then
    return ("!", c.next)
  else
    let (name, after) := c.next.span isNameChar
    if after.head != '!' then
      after.refuse (.noHandle after.head)
    else
      return ("!" ++ String.ofList name ++ "!", after.next)

def tag (c : Cursor) : Except Fault (Option String × String × Cursor) := do
  let second := c.peek 1
  let (prefixHandle, suffix, c) ←
    if second == '<' then do
      let (suffix, c) ← (c.skip 2).uri
      if c.head != '>' then
        c.refuse (.noTagEnd c.head)
      else
        pure (none, suffix, c.next)
    else if isWide second then
      pure (none, "!", c.next)
    else do
      let named := (c.rest.drop 1).takeWhile (fun ch => !isGap ch)
      if named.contains '!' then
        let (name, c) ← c.handle
        let (suffix, c) ← c.uri
        pure (some name, suffix, c)
      else
        let (suffix, c) ← c.next.uri
        pure (some "!", suffix, c)
  if isGap c.head then
    return (prefixHandle, suffix, c)
  else
    c.refuse (.noSpace c.head)

def versionNumber (c : Cursor) : Except Fault (Nat × Cursor) := do
  let (ds, after) := c.span Char.isDigit
  if ds.isEmpty then
    c.refuse (.noDigit c.head)
  else if Literal.digitLimit < ds.length then
    .error (.scalar (.literal (.tooLong ds.length)))
  else
    return ((Text.digits? 10 ds).getD 0, after)

def directiveContent (name : String) (c : Cursor) : Except Fault (Directive × Cursor) := do
  if name == "YAML" then
    let (major, c) ← (c.skipWhile (· == ' ')).versionNumber
    if c.head != '.' then
      c.refuse (.noDigitOrPoint c.head)
    else
      let (minor, c) ← c.next.versionNumber
      if isGap c.head then
        return (.version major minor, c)
      else
        c.refuse (.noDigitOrSpace c.head)
  else if name == "TAG" then
    let (handleName, c) ← (c.skipWhile (· == ' ')).handle
    if c.head != ' ' then
      c.refuse (.noSpace c.head)
    else
      let (expansion, c) ← (c.skipWhile (· == ' ')).uri
      if isGap c.head then
        return (.handle handleName expansion, c)
      else
        c.refuse (.noSpace c.head)
  else
    return (.reserved name, c.skipWhile (!isLineClose ·))

def directive (c : Cursor) : Except Fault (Directive × Cursor) := do
  let (name, c) := c.next.span isNameChar
  if name.isEmpty || !isGap c.head then
    c.refuse (.noName c.head)
  else
    let (content, c) ← c.directiveContent (String.ofList name)
    let c := c.skipWhile (· == ' ')
    let c := if c.head == '#' then c.skipWhile (!isLineClose ·) else c
    if !isLineClose c.head then
      c.refuse (.noLineEnd c.head)
    else
      return (content, c.lineBreak.2)

end Cursor

end Yang.Yaml

import Yang.Yaml.Token.Plain

/-!
This module contains the reading of quoted scalars. Between single quotes only the quote is escaped, by
doubling it; between double quotes a backslash opens an escape.
-/

namespace Yang.Yaml

def escapedChar? (c : Char) : Option Char :=
  [('0', '\x00'), ('a', '\x07'), ('b', '\x08'), ('t', '\t'), ('\t', '\t'), ('n', '\n'), ('v', '\x0b'),
    ('f', '\x0c'), ('r', '\r'), ('e', '\x1b'), (' ', ' '), ('"', '"'), ('\\', '\\'), ('/', '/'),
    ('N', '\u0085'), ('_', '\u00a0'), ('L', '\u2028'), ('P', '\u2029')].lookup c

def escapeDigitCount? (c : Char) : Option Nat :=
  [('x', 2), ('u', 4), ('U', 8)].lookup c

namespace Cursor

def endsRun (c : Char) : Bool :=
  c == '\'' || c == '"' || c == '\\' || isWide c

def quotedBreaks (c : Cursor) : Nat → Except Fault (List Char × Cursor)
  | 0 => .ok ([], c)
  | fuel + 1 =>
    if c.atSeparator then
      c.refuse .quoteAcrossDocuments
    else
      let c := c.skipWhile (fun ch => ch == ' ' || ch == '\t')
      if isBreak c.head then do
        let (line, after) := c.lineBreak
        let (more, last) ← quotedBreaks after fuel
        return (line ++ more, last)
      else
        .ok ([], c)

def quotedBlanks (c : Cursor) : Except Fault (List Char × Cursor) :=
  let (blanks, c) := c.span (fun ch => ch == ' ' || ch == '\t')
  if c.head == endMark then
    c.refuse .unclosedQuote
  else if isBreak c.head then do
    let (first, c) := c.lineBreak
    let (breaks, c) ← c.quotedBreaks (c.ahead + 1)
    return (fold first breaks, c)
  else
    .ok (blanks, c)

def escape (c : Cursor) : Except Fault (List Char × Cursor) :=
  let letter := c.head
  match escapedChar? letter with
  | some ch => .ok ([ch], c.next)
  | none =>
    match escapeDigitCount? letter with
    | some count =>
      let c := c.next
      let digits := (List.range count).map c.peek
      match digits.find? (fun d => (Text.hexValue? d).isNone) with
      | some bad => c.refuse (.escapeDigits count bad)
      | none =>
        let code := (Text.digits? 16 digits).getD 0
        match Text.ofCode? code with
        | some chs => .ok (chs, c.skip count)
        | none => .error (.scalar (if 0x7FFFFFFF < code then .codePointWidth else .codePoint))
    | none =>
      if isBreak letter then do
        let (_, after) := c.lineBreak
        after.quotedBreaks (after.ahead + 1)
      else
        c.refuse (.unknownEscape letter)

def quotedRun (double : Bool) (c : Cursor) : Nat → Except Fault (List Char × Cursor)
  | 0 => .ok ([], c)
  | fuel + 1 => do
    let (run, c) := c.span (fun ch => !endsRun ch)
    let ch := c.head
    if !double && ch == '\'' && c.peek 1 == '\'' then
      let (more, last) ← quotedRun double (c.skip 2) fuel
      return (run ++ '\'' :: more, last)
    else if (double && ch == '\'') || (!double && (ch == '"' || ch == '\\')) then
      let (more, last) ← quotedRun double c.next fuel
      return (run ++ ch :: more, last)
    else if double && ch == '\\' then
      let (escaped, after) ← c.next.escape
      let (more, last) ← quotedRun double after fuel
      return (run ++ escaped ++ more, last)
    else
      return (run, c)

def quotedRuns (double : Bool) (c : Cursor) : Nat → Except Fault (List Char × Cursor)
  | 0 => .ok ([], c)
  | fuel + 1 => do
    if c.head == (if double then '"' else '\'') then
      return ([], c)
    let (blanks, c) ← c.quotedBlanks
    let (run, c) ← c.quotedRun double (c.ahead + 1)
    let (more, last) ← quotedRuns double c fuel
    return (blanks ++ run ++ more, last)

def quoted (double : Bool) (c : Cursor) : Except Fault (String × Cursor) := do
  let c := c.next
  let (first, c) ← c.quotedRun double (c.ahead + 1)
  let (more, c) ← c.quotedRuns double (c.ahead + 1)
  return (String.ofList (first ++ more), c.next)

end Cursor

end Yang.Yaml

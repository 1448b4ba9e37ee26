import Yang.Yaml.Fault

/-!
This module contains the characters of a stream and the position of a reader in them. The end of the stream
reads as the character of code zero, which no stream holds.
-/

namespace Yang.Yaml

def isAllowed (c : Char) : Bool :=
  let n := c.toNat
  n == 9 || n == 10 || n == 13 || (0x20 ≤ n && n ≤ 0x7E) || n == 0x85 || (0xA0 ≤ n && n ≤ 0xD7FF)
    || (0xE000 ≤ n && n ≤ 0xFFFD) || (0x10000 ≤ n && n ≤ 0x10FFFF)

def firstRefused? (cs : List Char) : Option (Nat × Nat) := do
  let (_, position) ← cs.zipIdx.find? (fun (c, _) => !isAllowed c)
  let code ← (Text.codes (cs.drop position)).head?
  return (code, position)

def endMark : Char := '\x00'

def isBreak (c : Char) : Bool :=
  c == '\r' || c == '\n' || c == '\x85' || c == '\u2028' || c == '\u2029'

def isLineClose (c : Char) : Bool :=
  isBreak c || c == endMark

def isGap (c : Char) : Bool :=
  c == ' ' || isLineClose c

def isWide (c : Char) : Bool :=
  c == '\t' || isGap c

def isNameChar (c : Char) : Bool :=
  ('0' ≤ c && c ≤ '9') || ('A' ≤ c && c ≤ 'Z') || ('a' ≤ c && c ≤ 'z') || c == '-' || c == '_'

structure Cursor where
  rest : List Char
  ahead : Nat
  index : Nat
  line : Nat
  column : Nat
  deriving Repr, Inhabited

namespace Cursor

def start (cs : List Char) : Cursor :=
  ⟨cs, cs.length, 0, 0, 0⟩

def peek (c : Cursor) (ahead : Nat) : Char :=
  c.rest.getD ahead endMark

def head (c : Cursor) : Char :=
  c.peek 0

def next (c : Cursor) : Cursor :=
  match c.rest with
  | [] => c
  | ch :: rest =>
    if ch == '\n' || ch == '\x85' || ch == '\u2028' || ch == '\u2029'
        || (ch == '\r' && rest.head? != some '\n') then
      ⟨rest, c.ahead - 1, c.index + 1, c.line + 1, 0⟩
    else if ch == '\uFEFF' then
      ⟨rest, c.ahead - 1, c.index + 1, c.line, c.column⟩
    else
      ⟨rest, c.ahead - 1, c.index + 1, c.line, c.column + 1⟩

def skip (c : Cursor) : Nat → Cursor
  | 0 => c
  | n + 1 => (c.next).skip n

def span (p : Char → Bool) (c : Cursor) : List Char × Cursor :=
  let run := c.rest.takeWhile p
  (run, c.skip run.length)

def skipWhile (p : Char → Bool) (c : Cursor) : Cursor :=
  (c.span p).2

def lineBreak (c : Cursor) : List Char × Cursor :=
  let ch := c.head
  if ch == '\r' && c.peek 1 == '\n' then
    (['\n'], c.skip 2)
  else if ch == '\r' || ch == '\n' || ch == '\x85' then
    (['\n'], c.next)
  else if ch == '\u2028' || ch == '\u2029' then
    ([ch], c.next)
  else
    ([], c)

def atMarker (mark : Char) (c : Cursor) : Bool :=
  c.peek 0 == mark && c.peek 1 == mark && c.peek 2 == mark && isWide (c.peek 3)

def atSeparator (c : Cursor) : Bool :=
  c.atMarker '-' || c.atMarker '.'

def refuse {α : Type} (c : Cursor) (cause : Problem) : Except Fault α :=
  .error (.problem cause c.line)

end Cursor

end Yang.Yaml

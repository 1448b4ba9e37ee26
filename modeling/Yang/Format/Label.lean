import Yang.Text.Blank

/-!
This module contains labels: texts in which a word in brackets stands for a style, and a backslash before the bracket
takes that meaning away.
-/

namespace Yang.Label

/--
A piece of a label: characters, or brackets with a word that may stand for a style, behind a number of backslashes.
-/
inductive Piece where
  | plain (c : Char)
  | brackets (backslashes : Nat) (content : List Char)
  deriving DecidableEq, Repr, Inhabited

def opensStyle (c : Char) : Bool :=
  ('a' ≤ c && c ≤ 'z') || c == '#' || c == '/' || c == '@'

def bracketsLength? : List Char → Option Nat
  | '[' :: c :: rest =>
    if opensStyle c then
      let inner := rest.takeWhile (fun d => d != '[' && d != ']')
      if (rest.drop inner.length).head? = some ']' then some (inner.length + 3) else none
    else
      none
  | _ => none

def pieces (skipped : Nat) (cs : List Char) : List Piece :=
  match cs with
  | [] => []
  | c :: rest =>
    match skipped with
    | skipped + 1 => pieces skipped rest
    | 0 =>
      let backslashes := (cs.takeWhile (· == '\\')).length
      let tail := cs.drop backslashes
      match bracketsLength? tail with
      | some length => .brackets backslashes (tail.take length) :: pieces (backslashes + length - 1) rest
      | none => .plain c :: pieces 0 rest

def escape (s : String) : String :=
  let escaped := (pieces 0 s.toList).flatMap fun
    | .plain c => [c]
    -- an odd number of backslashes takes the meaning away, and halving it gives the old number back
    | .brackets n content => List.replicate (2 * n + 1) '\\' ++ content
  match escaped.reverse with
  | '\\' :: '\\' :: _ => String.ofList escaped
  | '\\' :: _ => String.ofList (escaped ++ ['\\'])
  | _ => String.ofList escaped

def dropBackslashes : List Char → List Char
  | [] => []
  | '\\' :: '[' :: rest => '[' :: dropBackslashes rest
  | c :: rest => c :: dropBackslashes rest

def shownPieces (run : List Char) : List Piece → List Char
  | [] => dropBackslashes run.reverse
  | .plain c :: rest => shownPieces (c :: run) rest
  | .brackets n content :: rest =>
    dropBackslashes run.reverse ++ List.replicate (n / 2) '\\'
      ++ (if n % 2 = 1 then content else []) ++ shownPieces [] rest

def isControl (c : Char) : Bool :=
  let n := c.toNat
  n == 7 || n == 8 || n == 11 || n == 12 || n == 13

def dropControls (cs : List Char) : List Char :=
  cs.filter (fun c => !isControl c)

def shown (label : String) : List Char :=
  let cs := label.toList
  dropControls (if cs.contains '[' then shownPieces [] (pieces 0 cs) else cs)

end Yang.Label

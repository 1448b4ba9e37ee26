import Yang.Text.Blank
import Yang.Text.Width

/-!
This module contains the folding of text into lines of a number of columns. A line ends between words where it can,
and within a word only when the word is wider than a line.
-/

namespace Yang.Text.Fold

def expandTabs (cs : List Char) : List Char :=
  go 0 (pieces '\t' cs)
where
  go (column : Nat) : List (List Char) → List Char
    | [] => []
    | [last] => last
    | piece :: rest =>
      -- the tab is a space that is measured together with what stands before it
      let spaced := piece ++ [' ']
      let column := column + width spaced
      let more := (8 - column % 8) % 8
      spaced ++ List.replicate more ' ' ++ go (column + more) rest

def words (cs : List Char) : List (List Char) :=
  go [] false cs
where
  go (word : List Char) (worded : Bool) : List Char → List (List Char)
    | [] => if worded then [word.reverse] else []
    | c :: rest =>
      if worded && !isBlank c && (word.head?.any isBlank) then
        word.reverse :: go [c] true rest
      else
        go (c :: word) (worded || !isBlank c) rest

def chop (limit : Nat) (cs : List Char) : List (List Char) :=
  go [] 0 (clusters cs)
where
  go (part : List Char) (used : Nat) : List Cluster → List (List Char)
    | [] => [part]
    | cluster :: rest =>
      if limit < used + cluster.size then
        part :: go cluster.chars cluster.size rest
      else
        go (part ++ cluster.chars) (used + cluster.size) rest

def dropEnd (cs : List Char) : List Char :=
  (cs.reverse.dropWhile isBlank).reverse

def starts (start : Nat) : List (List Char) → List Nat
  | [] => []
  | part :: rest => start :: starts (start + part.length) rest

def breaks (limit start used : Nat) : List (List Char) → List Nat
  | [] => []
  | word :: rest =>
    let next := start + word.length
    let size := width (dropEnd word)
    if used + size ≤ limit then
      breaks limit next (used + width word) rest
    else if limit < size then
      -- no line has room for the word, so it is cut from its own beginning on
      let parts := chop limit word
      (starts start parts).filter (fun i => i != 0)
        ++ breaks limit next (width (parts.getLast?.getD [])) rest
    -- the word fits a line of its own
    else if used ≠ 0 ∧ start ≠ 0 then
      start :: breaks limit next (width word) rest
    else
      breaks limit next used rest

def cut (start : Nat) (cs : List Char) : List Nat → List (List Char)
  | [] => [cs]
  | i :: rest => cs.take (i - start) :: cut i (cs.drop (i - start)) rest

def dropExcess (limit : Nat) (cs : List Char) : List Char :=
  let blanks := cs.length - (dropEnd cs).length
  cs.take (cs.length - min blanks (cs.length - limit))

def crop (room : Nat) (cs : List Char) : List Char :=
  go room (clusters cs)
where
  go (room : Nat) : List Cluster → List Char
    | [] => []
    | cluster :: rest =>
      if room = 0 then []
      else if cluster.size ≤ room then cluster.chars ++ go (room - cluster.size) rest
      else [' ']

def lines (limit : Nat) (cs : List Char) : List (List Char) :=
  (pieces '\n' cs).flatMap fun line =>
    let line := expandTabs line
    (cut 0 line (breaks limit 0 0 (words line))).map fun part =>
      let part := dropExcess limit part
      if limit < width part then crop limit part else part

def pad (size : Nat) (cs : List Char) : List Char :=
  cs ++ List.replicate (size - width cs) ' '

end Yang.Text.Fold

/-!
This module contains the two character classes that cut text apart, blanks and line ends, together with
the cutting functions over them.
-/

namespace Yang.Text

def isSpace (c : Char) : Bool :=
  let n := c.toNat
  (9 ≤ n && n ≤ 13) || n == 0x20 || n == 0x85 || n == 0xA0 || n == 0x1680
    || (0x2000 ≤ n && n ≤ 0x200A) || n == 0x2028 || n == 0x2029 || n == 0x202F || n == 0x205F
    || n == 0x3000

def isBlank (c : Char) : Bool :=
  isSpace c || (0x1C ≤ c.toNat && c.toNat ≤ 0x1F)

def isLineEnd (c : Char) : Bool :=
  let n := c.toNat
  (10 ≤ n && n ≤ 13) || (0x1C ≤ n && n ≤ 0x1E) || n == 0x85 || n == 0x2028 || n == 0x2029

def trim (p : Char → Bool) (cs : List Char) : List Char :=
  ((cs.dropWhile p).reverse.dropWhile p).reverse

def strip (s : String) : String :=
  String.ofList (trim isBlank s.toList)

def runs (p : Char → Bool) (cs : List Char) : List (List Char) :=
  go [] cs
where
  emit (run : List Char) (rest : List (List Char)) : List (List Char) :=
    if run.isEmpty then rest else run.reverse :: rest
  go (run : List Char) : List Char → List (List Char)
    | [] => emit run []
    | c :: rest => if p c then emit run (go [] rest) else go (c :: run) rest

def words (s : String) : List String :=
  (runs isBlank s.toList).map String.ofList

def pieces (sep : Char) (cs : List Char) : List (List Char) :=
  match cs with
  | [] => [[]]
  | c :: rest =>
    if c = sep then
      [] :: pieces sep rest
    else
      match pieces sep rest with
      | [] => [[c]]
      | piece :: more => (c :: piece) :: more

def splitAt (sep : Char) (s : String) : List String :=
  (pieces sep s.toList).map String.ofList

/--
The lines of a text without their ends. A carriage return and the line feed behind it are one end, and an
end at the very end of the text opens no further line.
-/
def lines (s : String) : List String :=
  (go [] s.toList).map String.ofList
where
  go (line : List Char) : List Char → List (List Char)
    | [] => if line.isEmpty then [] else [line.reverse]
    | '\r' :: '\n' :: rest => line.reverse :: go [] rest
    | c :: rest => if isLineEnd c then line.reverse :: go [] rest else go (c :: line) rest

def sorted (names : List String) : List String :=
  names.mergeSort (fun a b => decide (a ≤ b))

def repeated (n : Nat) (s : String) : String :=
  String.join (List.replicate n s)

theorem pieces_ne_nil (sep : Char) (cs : List Char) : pieces sep cs ≠ [] := by
  induction cs with
  | nil => simp [pieces]
  | cons c rest ih =>
    unfold pieces
    split
    · simp
    · split <;> simp

end Yang.Text

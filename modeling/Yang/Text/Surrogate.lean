import Yang.Text.Digits

/-!
This module contains the halves of surrogate pairs. Such a half is a code point and no character, yet an escape may name
it. A text holds it as two characters: a mark, and the character that is 0x800 places above it. The mark itself is
written twice, so that no character is taken for a half.
-/

namespace Yang.Text

def isSurrogate (n : Nat) : Bool :=
  0xD800 ≤ n && n ≤ 0xDFFF

def surrogateShift : Nat := 0x800

/--
The character before one that stands for the half of a pair: a control character, which takes no column and which no
stream may hold.
-/
def surrogateMark : Char := '\x91'

def ofChar (c : Char) : List Char :=
  if c = surrogateMark then [c, c] else [c]

def ofCode? (n : Nat) : Option (List Char) :=
  if isSurrogate n then (char? (n + surrogateShift)).map (fun c => [surrogateMark, c]) else (char? n).map ofChar

/--
The code points of a text. A mark that marks nothing stands for itself.
-/
def codes : List Char → List Nat
  | [] => []
  | [c] => [c.toNat]
  | c :: d :: rest =>
    if c = surrogateMark then
      if d = surrogateMark then c.toNat :: codes rest
      else if isSurrogate (d.toNat - surrogateShift) then (d.toNat - surrogateShift) :: codes rest
      else c.toNat :: codes (d :: rest)
    else c.toNat :: codes (d :: rest)

def ofCharacters (s : String) : String :=
  String.ofList (s.toList.flatMap ofChar)

def characters (s : String) : String :=
  String.ofList ((codes s.toList).map (fun n => (char? n).getD '\uFFFD'))

def isBroken (s : String) : Bool :=
  (codes s.toList).any isSurrogate

def mendedWith (instead : Nat → List Char) (s : String) : String :=
  String.ofList ((codes s.toList).flatMap (fun n => ((char? n).map ofChar).getD (instead n)))

def mended (s : String) : String :=
  mendedWith (fun _ => List.replicate 3 '\uFFFD') s

end Yang.Text

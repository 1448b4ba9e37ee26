import Yang.Text.Printable
import Yang.Text.Surrogate

/-!
This module contains the quoted form of a text, in which no character can be mistaken for another. The
quotes are single unless the text has a single quote and no double one.
-/

namespace Yang.Text

def escapeCode (n : Nat) : String :=
  if n < 0x100 then "\\x" ++ hex 2 n
  else if n < 0x10000 then "\\u" ++ hex 4 n
  else "\\U" ++ hex 8 n

def escapeChar (quote c : Char) : String :=
  if c = quote ∨ c = '\\' then String.ofList ['\\', c]
  else if c = '\t' then "\\t"
  else if c = '\n' then "\\n"
  else if c = '\r' then "\\r"
  else if isPrintable c then String.singleton c
  else escapeCode c.toNat

def escapePoint (quote : Char) (n : Nat) : String :=
  ((char? n).map (escapeChar quote)).getD (escapeCode n)

def quoteOf (s : String) : Char :=
  if s.toList.contains '\'' && !s.toList.contains '"' then '"' else '\''

def quoted (s : String) : String :=
  let quote := quoteOf s
  String.singleton quote ++ String.join ((codes s.toList).map (escapePoint quote)) ++ String.singleton quote

def quotedOctets (bytes : List UInt8) : String :=
  let cs := bytes.map (fun b => Char.ofNat b.toNat)
  let quote := quoteOf (String.ofList cs)
  let escape (c : Char) : String :=
    if c.toNat < 0x7F then escapeChar quote c else "\\x" ++ hex 2 c.toNat
  "b" ++ String.singleton quote ++ String.join (cs.map escape) ++ String.singleton quote

end Yang.Text

import Yang.Text.Quoted

/-!
This module contains the code points that a codec has octets for, and the first of those in a text that it has none for.
-/

namespace Yang.Text

inductive Codec where
  | ascii
  | utf8
  deriving DecidableEq, Repr, Inhabited

structure Unwritten where
  codec : Codec
  run : List Nat
  position : Nat
  deriving DecidableEq, Repr, Inhabited

namespace Codec

def name : Codec → String
  | ascii => "ascii"
  | utf8 => "utf-8"

def writes : Codec → Nat → Bool
  | ascii, n => n < 128
  | utf8, n => !isSurrogate n

def refusal : Codec → String
  | ascii => "ordinal not in range(128)"
  | utf8 => "surrogates not allowed"

def unwritten? (codec : Codec) (s : String) : Option Unwritten :=
  let ns := codes s.toList
  match ns.dropWhile codec.writes with
  | [] => none
  | rest => some ⟨codec, rest.takeWhile (!codec.writes ·), (ns.takeWhile codec.writes).length⟩

end Codec

def Unwritten.message (u : Unwritten) : String :=
  let place :=
    match u.run with
    | [n] => "character '" ++ escapeCode n ++ "' in position " ++ toString u.position
    | ns =>
      "characters in position " ++ toString u.position ++ "-" ++ toString (u.position + ns.length - 1)
  "'" ++ u.codec.name ++ "' codec can't encode " ++ place ++ ": " ++ u.codec.refusal

def escapeHalves (s : String) : String :=
  mendedWith (fun n => (escapeCode n).toList) s

end Yang.Text

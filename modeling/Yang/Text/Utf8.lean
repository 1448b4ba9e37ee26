import Yang.Text.Surrogate

/-!
This module contains the strict decoding of UTF-8. A sequence of octets that is no text is refused at the
first character that cannot be completed, and the refusal names the octets that belong to it.
-/

namespace Yang.Text.Utf8

inductive Reason where
  | startByte
  | continuationByte
  | endOfData
  deriving DecidableEq, Repr, Inhabited

def Reason.message : Reason → String
  | startByte => "invalid start byte"
  | continuationByte => "invalid continuation byte"
  | endOfData => "unexpected end of data"

structure Fault where
  position : Nat
  octet : UInt8
  count : Nat
  reason : Reason
  deriving DecidableEq, Repr, Inhabited

def Fault.message (f : Fault) : String :=
  let place :=
    if f.count = 1 then
      "byte 0x" ++ hex 2 f.octet.toNat ++ " in position " ++ toString f.position
    else
      "bytes in position " ++ toString f.position ++ "-" ++ toString (f.position + f.count - 1)
  "'utf-8' codec can't decode " ++ place ++ ": " ++ f.reason.message

def isContinuation (b : UInt8) : Bool :=
  0x80 ≤ b.toNat && b.toNat < 0xC0

def shape? (b : UInt8) : Option (Nat × Nat × Nat) :=
  let n := b.toNat
  if 0xC2 ≤ n ∧ n ≤ 0xDF then some (2, 0x80, 0xBF)
  else if n = 0xE0 then some (3, 0xA0, 0xBF)
  else if n = 0xED then some (3, 0x80, 0x9F)
  else if 0xE1 ≤ n ∧ n ≤ 0xEF then some (3, 0x80, 0xBF)
  else if n = 0xF0 then some (4, 0x90, 0xBF)
  else if n = 0xF4 then some (4, 0x80, 0x8F)
  else if 0xF1 ≤ n ∧ n ≤ 0xF3 then some (4, 0x80, 0xBF)
  else none

def tail (low high : Nat) : Nat → List UInt8 → List UInt8 × Bool
  | 0, _ => ([], false)
  | _ + 1, [] => ([], false)
  | n + 1, b :: rest =>
    if low ≤ b.toNat ∧ b.toNat ≤ high then
      let (taken, stopped) := tail 0x80 0xBF n rest
      (b :: taken, stopped)
    else
      ([], true)

def assemble (first : UInt8) (rest : List UInt8) : Char :=
  let lead := first.toNat % (1 <<< (6 - rest.length))
  Char.ofNat (rest.foldl (fun acc b => acc * 64 + b.toNat % 64) lead)

def decodeFrom (position : Nat) (bytes : List UInt8) : Except Fault (List Char) :=
  match bytes with
  | [] => .ok []
  | b :: rest =>
    if b.toNat < 0x80 then do
      let cs ← decodeFrom (position + 1) rest
      return Char.ofNat b.toNat :: cs
    else
      match shape? b with
      | none => .error ⟨position, b, 1, .startByte⟩
      | some (size, low, high) =>
        let (taken, stopped) := tail low high (size - 1) rest
        if stopped then
          .error ⟨position, b, 1 + taken.length, .continuationByte⟩
        else if taken.length + 1 < size then
          .error ⟨position, b, 1 + taken.length, .endOfData⟩
        else do
          let cs ← decodeFrom (position + size) (rest.drop taken.length)
          return assemble b taken :: cs
termination_by bytes.length
decreasing_by
  · simp
  · simp only [List.length_drop, List.length_cons]
    omega

def decode (bytes : List UInt8) : Except Fault String :=
  (decodeFrom 0 bytes).map (fun cs => ofCharacters (String.ofList cs))

def encode (s : String) : List UInt8 :=
  (characters s).toUTF8.toList

end Yang.Text.Utf8

import Mathlib.Data.List.Basic
import Yang.Format.Json
import Yang.Proofs.Text.Units

/-!
This module contains the reading of quoted texts. What is read are the units of the text that was written.
-/

namespace Yang

namespace Text

theorem hexValue?_digitChar {n : Nat} (h : n < 16) : hexValue? n.digitChar = some n := by
  have hall : ∀ n < 16, hexValue? (Nat.digitChar n) = some n := by decide
  exact hall n h

theorem digits?_concat {base n m : Nat} {cs : List Char} {c : Char} (hcs : digits? base cs = some n)
    (hc : hexValue? c = some m) (hm : m < base) : digits? base (cs ++ [c]) = some (n * base + m) := by
  unfold digits? at hcs ⊢
  rw [List.foldlM_append, hcs]
  simp [hc, hm]

theorem digits?_toDigits (n : Nat) : digits? 16 (Nat.toDigits 16 n) = some n := by
  induction n using Nat.strongRecOn with
  | ind n ih =>
    rw [Nat.toDigits_eq_if (by decide)]
    split
    · next h =>
      have hdigit := digits?_concat (digits?_nil 16) (hexValue?_digitChar h) h
      rw [List.nil_append, Nat.zero_mul, Nat.zero_add] at hdigit
      exact hdigit
    · next h =>
      have hlast : n % 16 < 16 := Nat.mod_lt _ (by decide)
      rw [digits?_concat (ih (n / 16) (by omega)) (hexValue?_digitChar hlast) hlast, Nat.div_add_mod' n 16]

theorem digits?_zeros (count : Nat) (cs : List Char) : digits? 16 (List.replicate count '0' ++ cs) = digits? 16 cs := by
  induction count with
  | zero => rfl
  | succ count ih =>
    rw [List.replicate_succ, List.cons_append, ← ih]
    rfl

theorem hex_spec {n : Nat} (h : n < 0x10000) :
    ∃ a b c d, (hex 4 n).toList = [a, b, c, d] ∧ digits? 16 [a, b, c, d] = some n := by
  have hlength : (Nat.toDigits 16 n).length ≤ 4 := (Nat.length_toDigits_le_iff (by decide) (by decide)).2 h
  have hdigits := digits?_zeros (4 - (Nat.toDigits 16 n).length) (Nat.toDigits 16 n)
  rw [digits?_toDigits] at hdigits
  have hfour : (List.replicate (4 - (Nat.toDigits 16 n).length) '0' ++ Nat.toDigits 16 n).length = 4 := by
    rw [List.length_append, List.length_replicate]
    omega
  obtain ⟨a, b, c, d, heq⟩ := List.length_eq_four.1 hfour
  rw [heq] at hdigits
  refine ⟨a, b, c, d, ?_, hdigits⟩
  unfold hex
  dsimp only
  rw [String.toList_ofList, heq]

end Text

namespace Json

def readUnit : List Char → Option (Nat × List Char)
  | '\\' :: 'u' :: a :: b :: c :: d :: rest => (Text.digits? 16 [a, b, c, d]).map fun n => (n, rest)
  | '\\' :: '"' :: rest => some (0x22, rest)
  | '\\' :: '\\' :: rest => some (0x5C, rest)
  | '\\' :: 'b' :: rest => some (8, rest)
  | '\\' :: 't' :: rest => some (9, rest)
  | '\\' :: 'n' :: rest => some (10, rest)
  | '\\' :: 'f' :: rest => some (12, rest)
  | '\\' :: 'r' :: rest => some (13, rest)
  | c :: rest => some (c.toNat, rest)
  | [] => none

theorem readUnit_cons_of_ne {c : Char} (h : c ≠ '\\') (rest : List Char) :
    readUnit (c :: rest) = some (c.toNat, rest) := by
  unfold readUnit
  split
  · exact absurd (List.cons.inj ‹_›).1 h
  · exact absurd (List.cons.inj ‹_›).1 h
  · exact absurd (List.cons.inj ‹_›).1 h
  · exact absurd (List.cons.inj ‹_›).1 h
  · exact absurd (List.cons.inj ‹_›).1 h
  · exact absurd (List.cons.inj ‹_›).1 h
  · exact absurd (List.cons.inj ‹_›).1 h
  · exact absurd (List.cons.inj ‹_›).1 h
  · next heq =>
    cases heq
    rfl
  · next heq => cases heq

theorem readUnit_escape {u : Nat} (h : u < 0x10000) (rest : List Char) :
    readUnit ((escape u).toList ++ rest) = some (u, rest) := by
  unfold escape
  split
  · next hu => rw [hu]; rfl
  split
  · next hu => rw [hu]; rfl
  split
  · next hu => rw [hu]; rfl
  split
  · next hu => rw [hu]; rfl
  split
  · next hu => rw [hu]; rfl
  split
  · next hu => rw [hu]; rfl
  split
  · next hu => rw [hu]; rfl
  split
  · next hquote hbackslash _ _ _ _ _ hplain =>
    rw [String.toList_singleton, List.singleton_append]
    have hall : ∀ u < 0x80, (Char.ofNat u).toNat = u := by decide
    have hcode := hall u hplain.2
    have hne : Char.ofNat u ≠ '\\' := by
      intro heq
      rw [heq] at hcode
      exact hbackslash hcode.symm
    rw [readUnit_cons_of_ne hne, hcode]
  · obtain ⟨a, b, c, d, hhex, hdigits⟩ := Text.hex_spec h
    unfold unit
    rw [String.toList_append, hhex]
    change (Text.digits? 16 [a, b, c, d]).map _ = _
    rw [hdigits]
    rfl

theorem escape_ne_quote {u : Nat} (h : u < 0x10000) (rest rest' : List Char) :
    (escape u).toList ++ rest ≠ '"' :: rest' := by
  intro heq
  have hread := readUnit_escape h rest
  rw [heq, readUnit_cons_of_ne (by decide)] at hread
  -- a quotation mark is not written as it is
  cases (Prod.mk.inj (Option.some.inj hread)).1
  exact nomatch heq

theorem escapes_append_inj {us us' : List Nat} (h : ∀ u ∈ us, u < 0x10000) (h' : ∀ u ∈ us', u < 0x10000)
    {rest rest' : List Char}
    (heq : us.flatMap (fun u => (escape u).toList) ++ '"' :: rest
      = us'.flatMap (fun u => (escape u).toList) ++ '"' :: rest') : us = us' ∧ rest = rest' := by
  induction us generalizing us' with
  | nil =>
    cases us' with
    | nil => exact ⟨rfl, (List.cons.inj heq).2⟩
    | cons u' more' =>
      rw [List.flatMap_nil, List.flatMap_cons, List.append_assoc] at heq
      exact absurd heq.symm (escape_ne_quote (List.forall_mem_cons.1 h').1 _ _)
  | cons u more ih =>
    rw [List.forall_mem_cons] at h
    rw [List.flatMap_cons, List.append_assoc] at heq
    cases us' with
    | nil => exact absurd heq (escape_ne_quote h.1 _ _)
    | cons u' more' =>
      rw [List.forall_mem_cons] at h'
      rw [List.flatMap_cons, List.append_assoc] at heq
      have hread := readUnit_escape h.1 (more.flatMap (fun u => (escape u).toList) ++ '"' :: rest)
      rw [heq, readUnit_escape h'.1] at hread
      obtain ⟨rfl, hmore⟩ := Prod.mk.inj (Option.some.inj hread)
      obtain ⟨rfl, hrest⟩ := ih h.2 h'.2 hmore.symm
      exact ⟨rfl, hrest⟩

theorem escape_of_le {n : Nat} (h : 0x80 ≤ n) :
    escape n = if n < 0x10000 then unit n
      else unit (0xD800 + (n - 0x10000) / 0x400) ++ unit (0xDC00 + (n - 0x10000) % 0x400) := by
  unfold escape
  iterate 8 rw [if_neg (by omega)]

theorem toList_escape {n : Nat} (h : n < 0x110000) :
    (escape n).toList = (Text.unitsOf n).flatMap (fun u => (escape u).toList) := by
  unfold Text.unitsOf
  split
  · rw [List.flatMap_singleton]
  · next hn =>
    have hhalf : ∀ u, 0xD800 ≤ u → u < 0x10000 → escape u = unit u := by
      intro u hlow hhigh
      rw [escape_of_le (by omega), if_pos hhigh]
    rw [List.flatMap_cons, List.flatMap_singleton]
    rw [hhalf (0xD800 + (n - 0x10000) / 0x400) (by omega) (by omega)]
    rw [hhalf (0xDC00 + (n - 0x10000) % 0x400) (by omega) (by omega)]
    rw [escape_of_le (by omega), if_neg hn, String.toList_append]

theorem toList_quote (s : String) :
    (quote s).toList = '"' :: ((Text.units s).flatMap (fun u => (escape u).toList) ++ ['"']) := by
  unfold quote Text.units
  rw [String.toList_append, String.toList_append, String.toList_join, List.flatMap_map, List.flatMap_assoc]
  rw [List.flatMap_congr fun n hn => toList_escape (Text.codes_lt _ n hn)]
  rfl

theorem quote_append_inj {s s' : String} {rest rest' : List Char}
    (h : (quote s).toList ++ rest = (quote s').toList ++ rest') : Text.units s = Text.units s' ∧ rest = rest' := by
  rw [toList_quote, toList_quote, List.cons_append, List.cons_append, List.append_assoc, List.append_assoc] at h
  exact escapes_append_inj (Text.units_lt s) (Text.units_lt s') (List.cons.inj h).2

end Json

end Yang

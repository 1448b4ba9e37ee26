import Yang.Format.Outline
import Yang.Proofs.Entry.Named
import Yang.Proofs.Text.Lines

/-!
This module contains the rows of the outline, which are its lines but for comments and closing brackets. A row can be
read: it tells the kind of its entry, where the entry belongs, its name, access and type, and the keys of a list.
-/

namespace Yang

theorem Field.toNat_of_continuesName {c : Char} (h : continuesName c = true) : 45 ≤ c.toNat ∧ c.toNat ≤ 122 := by
  unfold continuesName Char.isAlphanum Char.isAlpha Char.isUpper Char.isLower Char.isDigit at h
  simp only [Bool.or_eq_true, Bool.and_eq_true, decide_eq_true_eq, beq_iff_eq, UInt32.le_iff_toNat_le,
    ge_iff_le] at h
  change ((((((65 ≤ c.toNat ∧ c.toNat ≤ 90) ∨ (97 ≤ c.toNat ∧ c.toNat ≤ 122)) ∨ (48 ≤ c.toNat ∧ c.toNat ≤ 57))
    ∨ c = '_') ∨ c = '.') ∨ c = '-') at h
  rcases h with ((h | rfl) | rfl) | rfl
  · omega
  all_goals decide

namespace Outline

def Word (s : String) : Prop :=
  ∀ c ∈ s.toList, Field.continuesName c = true ∨ c = ':'

theorem word_of_isIdentifier {s : String} (h : Field.isIdentifier s = true) : Word s :=
  fun c hc => .inl (Field.continuesName_of_mem h c hc)

theorem word_append {s t : String} : Word (s ++ t) ↔ Word s ∧ Word t := by
  unfold Word
  rw [String.toList_append, List.forall_mem_append]

theorem word_colon : Word ":" :=
  List.forall_mem_singleton.2 (.inr rfl)

theorem Word.not_mem {s : String} (h : Word s) {c : Char} (hc : Field.continuesName c = false) (hne : c ≠ ':') :
    c ∉ s.toList := by
  intro hmem
  rcases h c hmem with hname | heq
  · rw [hc] at hname
    cases hname
  · exact hne heq

theorem Word.single {s : String} (h : Word s) : Text.Single s := by
  intro c hc
  have hbounds : 45 ≤ c.toNat ∧ c.toNat ≤ 122 := by
    rcases h c hc with hname | rfl
    · exact Field.toNat_of_continuesName hname
    · decide
  unfold Text.isLineEnd
  simp only [Bool.or_eq_false_iff, Bool.and_eq_false_iff, decide_eq_false_iff_not, beq_eq_false_iff_ne]
  omega

end Outline

open Outline

structure EntryHead.Spelled (head : EntryHead) (children : List EntryHead) : Prop where
  name : Field.isIdentifier head.name = true
  prefixId : head.kind ≠ .module → Field.isIdentifier head.prefixId = true
  access : head.kind = .module → head.config = true
  typed : head.type.isSome = head.kind.isLeaf
  type : ∀ type, head.type = some type → Word type.name
  keys : head.kind = .list → ∀ key ∈ head.keys, Field.isIdentifier key = true
  leaf : head.kind.isLeaf = true → children = []

namespace Outline

/--
What the outline tells of an entry. Of a root it tells only the name, and of keys only those of lists.
-/
structure Sign where
  kind : EntryKind
  prefixId : String
  name : String
  config : Bool
  type : Option String
  keys : List String
  deriving DecidableEq, Repr

def row (head : EntryHead) : String :=
  header head ++ if head.kind.isLeaf then "" else " \x7b"

def decorated (head : EntryHead) : String :=
  match head.kind with
  | .leafList => "[]" ++ head.qualifiedName
  | .list => "[" ++ " ".intercalate head.keys ++ "]" ++ head.qualifiedName
  | .choice => "choice " ++ head.qualifiedName
  | .case => "case " ++ head.qualifiedName
  | _ => head.qualifiedName

end Outline

def EntryHead.sign (head : EntryHead) : Sign where
  kind := head.kind
  prefixId := if head.kind = .module then "" else head.prefixId
  name := head.name
  config := head.config
  type := head.type.map ResolvedType.name
  keys := if head.kind = .list then head.keys else []

namespace Outline.Sign

def qualified (kind : EntryKind) (config : Bool) (type : Option (List Char)) (keys : List (List Char))
    (name : List Char) : Sign :=
  let r := Reference.ofText (String.ofList name)
  ⟨kind, r.prefixId.getD "", r.name, config, type.map String.ofList, keys.map String.ofList⟩

def ofList (config : Bool) (first last : List Char) : Sign :=
  match first with
  | '[' :: keys =>
    qualified .list config none ((Text.pieces ' ' keys).filter (fun key => !key.isEmpty))
      (last.takeWhile (fun c => c != ' '))
  | type => qualified .leafList config (some (type.takeWhile (fun c => c != ' '))) [] last

def ofText? (config : Bool) (text : List Char) : Option Sign :=
  match Text.pieces ']' text with
  | [first, last] => some (ofList config first last)
  | _ =>
    match Text.pieces ' ' text with
    | [first, last] =>
      if last = ['\x7b'] then some (qualified .container config none [] first)
      else some (qualified .leaf config (some first) [] last)
    | [word, name, _] => some (qualified (if word = "choice".toList then .choice else .case) config none [] name)
    | _ => none

def ofHeading? (row : List Char) : Option Sign :=
  match Text.pieces ' ' row with
  | [_, name, _] => some ⟨.module, "", String.ofList name, true, none, []⟩
  | _ => none

def ofRow? (row : List Char) : Option Sign :=
  match row with
  | 'r' :: 'w' :: ':' :: ' ' :: text => ofText? true text
  | 'R' :: 'O' :: ':' :: ' ' :: text => ofText? false text
  | row => ofHeading? row

end Outline.Sign

namespace EntryHead.Spelled

variable {head : EntryHead} {children : List EntryHead}

theorem type_eq_none (h : head.Spelled children) (hleaf : head.kind.isLeaf = false) : head.type = none := by
  have htyped := h.typed
  rw [hleaf] at htyped
  exact Option.not_isSome_iff_eq_none.1 (ne_true_of_eq_false htyped)

theorem exists_type (h : head.Spelled children) (hleaf : head.kind.isLeaf = true) :
    ∃ type, head.type = some type ∧ Word type.name := by
  have htyped := h.typed
  rw [hleaf] at htyped
  obtain ⟨type, htype⟩ := Option.isSome_iff_exists.1 htyped
  exact ⟨type, htype, h.type type htype⟩

end EntryHead.Spelled

namespace Outline

variable {head : EntryHead} {children : List EntryHead}

theorem describe_eq (head : EntryHead) : head.describe
    = " ".intercalate
      ((if head.config then "rw:" else "RO:") :: (head.type.map ResolvedType.name).toList ++ [decorated head]) :=
  rfl

def said (head : EntryHead) : String :=
  match head.type with
  | none => decorated head
  | some type => type.name ++ " " ++ decorated head

theorem toList_row (hkind : head.kind ≠ .module) : (row head).toList
    = (if head.config then ['r', 'w'] else ['R', 'O']) ++ ':' :: ' ' ::
      ((said head).toList ++ if head.kind.isLeaf then [] else [' ', '\x7b']) := by
  unfold row header said
  rw [if_neg hkind, describe_eq]
  cases head.type <;> cases head.config <;> cases head.kind.isLeaf <;>
    simp [String.toList_append]

theorem toList_row_of_module (hkind : head.kind = .module) :
    (row head).toList = "module".toList ++ ' ' :: (head.name.toList ++ [' ', '\x7b']) := by
  unfold row header
  rw [if_pos hkind, hkind, String.toList_append, String.toList_append, List.append_assoc]
  rfl

theorem word_qualifiedName (h : head.Named) : Word head.qualifiedName := by
  unfold EntryHead.qualifiedName
  rw [word_append, word_append]
  exact ⟨⟨word_of_isIdentifier h.prefixId, word_colon⟩, word_of_isIdentifier h.name⟩

namespace Sign

theorem qualified_qualifiedName (h : head.Named) (kind : EntryKind) (config : Bool) (type : Option (List Char))
    (keys : List (List Char)) : qualified kind config type keys head.qualifiedName.toList
      = ⟨kind, head.prefixId, head.name, config, type.map String.ofList, keys.map String.ofList⟩ := by
  unfold qualified
  rw [String.ofList_toList, h.ofText_qualifiedName]
  rfl

theorem filter_pieces_keys {keys : List String} (h : ∀ key ∈ keys, Field.isIdentifier key = true) :
    ((Text.pieces ' ' (" ".intercalate keys).toList).filter (fun key => !key.isEmpty)).map String.ofList = keys := by
  cases keys with
  | nil => decide
  | cons key rest =>
    have hparts : ∀ part ∈ (key :: rest).map String.toList, ' ' ∉ part := by
      rw [List.forall_mem_map]
      exact fun part hpart => Field.not_mem_of_isIdentifier (h part hpart) (by decide)
    rw [String.toList_intercalate, show (" " : String).toList = [' '] from rfl,
      Text.pieces_intercalate (by simp) hparts, List.filter_eq_self.2, List.map_map]
    · exact (List.map_congr_left fun part _ => String.ofList_toList).trans (List.map_id _)
    · rw [List.forall_mem_map]
      intro part hpart
      simpa using Field.ne_empty_of_isIdentifier (h part hpart)

section

variable {config : Bool} {type name keys : List Char}

theorem takeWhile_space (h : ' ' ∉ name) (rest : List Char) :
    (name ++ ' ' :: rest).takeWhile (fun c => c != ' ') = name := by
  rw [List.takeWhile_append_of_pos, List.takeWhile_cons_of_neg (by decide), List.append_nil]
  intro c hc
  rw [bne_iff_ne]
  rintro rfl
  exact h hc

theorem ofText?_list (hkeys : ']' ∉ keys) (hspace : ' ' ∉ name) (hbracket : ']' ∉ name) :
    ofText? config ('[' :: keys ++ ']' :: (name ++ [' ', '\x7b']))
      = some (qualified .list config none ((Text.pieces ' ' keys).filter (fun key => !key.isEmpty)) name) := by
  unfold ofText?
  rw [Text.pieces_append (by simpa using hkeys), Text.pieces_of_not_mem (by simpa using hbracket)]
  change some (qualified _ _ _ _ (List.takeWhile _ (name ++ [' ', '\x7b']))) = _
  rw [takeWhile_space hspace]

theorem ofText?_leafList (hspace : ' ' ∉ type) (hleft : '[' ∉ type) (hright : ']' ∉ type) (hbracket : ']' ∉ name) :
    ofText? config (type ++ ' ' :: '[' :: ']' :: name) = some (qualified .leafList config (some type) [] name) := by
  unfold ofText?
  rw [show type ++ ' ' :: '[' :: ']' :: name = (type ++ [' ', '[']) ++ ']' :: name by simp,
    Text.pieces_append (by simpa using hright), Text.pieces_of_not_mem hbracket]
  dsimp only
  unfold ofList
  split
  · next _ keys heq =>
    cases type with
    | nil => cases heq
    | cons c rest =>
      rw [List.cons_append, List.cons.injEq] at heq
      exact absurd (heq.1 ▸ List.mem_cons_self) hleft
  · rw [takeWhile_space hspace]

theorem ofText?_of_not_mem {text : List Char} (hbracket : ']' ∉ text) {first last : List Char}
    (h : Text.pieces ' ' text = [first, last]) : ofText? config text
      = if last = ['\x7b'] then some (qualified .container config none [] first)
        else some (qualified .leaf config (some first) [] last) := by
  unfold ofText?
  rw [Text.pieces_of_not_mem hbracket, h]

theorem ofText?_container (hspace : ' ' ∉ name) (hbracket : ']' ∉ name) :
    ofText? config (name ++ [' ', '\x7b']) = some (qualified .container config none [] name) := by
  rw [ofText?_of_not_mem (by simpa using hbracket) (Text.pieces_append hspace), if_pos rfl]

theorem ofText?_leaf (htype : ' ' ∉ type) (htype' : ']' ∉ type) (hspace : ' ' ∉ name) (hbracket : ']' ∉ name)
    (hne : name ≠ ['\x7b']) :
    ofText? config (type ++ ' ' :: name) = some (qualified .leaf config (some type) [] name) := by
  have hpieces : Text.pieces ' ' (type ++ ' ' :: name) = [type, name] := by
    rw [Text.pieces_append htype, Text.pieces_of_not_mem hspace]
  rw [ofText?_of_not_mem (by simpa using ⟨htype', hbracket⟩) hpieces, if_neg hne]

theorem ofText?_group (word : List Char) (hword : ' ' ∉ word) (hword' : ']' ∉ word) (hspace : ' ' ∉ name)
    (hbracket : ']' ∉ name) :
    ofText? config (word ++ ' ' :: (name ++ [' ', '\x7b']))
      = some (qualified (if word = "choice".toList then .choice else .case) config none [] name) := by
  have hpieces : Text.pieces ' ' (word ++ ' ' :: (name ++ [' ', '\x7b'])) = [word, name, ['\x7b']] := by
    rw [Text.pieces_append hword, Text.pieces_append hspace]
    rfl
  unfold ofText?
  rw [Text.pieces_of_not_mem (by simpa using ⟨hword', hbracket⟩), hpieces]

end

theorem not_mem_qualifiedName (h : head.Named) :
    ' ' ∉ head.qualifiedName.toList ∧ ']' ∉ head.qualifiedName.toList :=
  ⟨(word_qualifiedName h).not_mem (by decide) (by decide), (word_qualifiedName h).not_mem (by decide) (by decide)⟩

theorem ofText?_said_of_isLeaf_eq_false (h : head.Spelled children) (hkind : head.kind ≠ .module)
    (hleaf : head.kind.isLeaf = false) :
    ofText? head.config ((said head).toList ++ [' ', '\x7b']) = some head.sign := by
  have hnamed : head.Named := ⟨h.name, h.prefixId hkind, hkind⟩
  obtain ⟨hspace, hbracket⟩ := not_mem_qualifiedName hnamed
  unfold EntryHead.sign said
  rw [if_neg hkind, h.type_eq_none hleaf]
  unfold decorated
  cases hk : head.kind with
  | module => exact absurd hk hkind
  | leaf | leafList =>
    rw [hk] at hleaf
    cases hleaf
  | container =>
    exact (ofText?_container hspace hbracket).trans (congrArg some (qualified_qualifiedName hnamed _ _ _ _))
  | choice =>
    dsimp only
    rw [String.toList_append]
    refine (ofText?_group "choice".toList (by decide) (by decide) hspace hbracket).trans ?_
    exact congrArg some (qualified_qualifiedName hnamed _ _ _ _)
  | case =>
    dsimp only
    rw [String.toList_append]
    refine (ofText?_group "case".toList (by decide) (by decide) hspace hbracket).trans ?_
    exact congrArg some (qualified_qualifiedName hnamed _ _ _ _)
  | list =>
    have hkeys : ']' ∉ (" ".intercalate head.keys).toList := by
      intro hmem
      refine Text.forall_mem_intercalate (p := fun c => c ≠ ']') (List.forall_mem_singleton.2 (by decide)) ?_ ']'
        hmem rfl
      rintro key hkey c hc rfl
      exact Field.not_mem_of_isIdentifier (h.keys hk key hkey) (by decide) hc
    dsimp only
    simp only [String.toList_append, List.append_assoc]
    refine (ofText?_list hkeys hspace hbracket).trans ?_
    rw [qualified_qualifiedName hnamed, filter_pieces_keys (h.keys hk)]
    rfl

theorem ofText?_said_of_isLeaf (h : head.Spelled children) (hkind : head.kind ≠ .module)
    (hleaf : head.kind.isLeaf = true) : ofText? head.config (said head).toList = some head.sign := by
  have hnamed : head.Named := ⟨h.name, h.prefixId hkind, hkind⟩
  obtain ⟨hspace, hbracket⟩ := not_mem_qualifiedName hnamed
  obtain ⟨type, htype, hread⟩ := h.exists_type hleaf
  have hspace' : ' ' ∉ type.name.toList := hread.not_mem (by decide) (by decide)
  have hbracket' : ']' ∉ type.name.toList := hread.not_mem (by decide) (by decide)
  unfold EntryHead.sign said
  rw [if_neg hkind, htype]
  dsimp only
  rw [String.toList_append, String.toList_append, List.append_assoc, Option.map_some]
  unfold decorated
  cases hk : head.kind with
  | module => exact absurd hk hkind
  | container | choice | case | list =>
    rw [hk] at hleaf
    cases hleaf
  | leaf =>
    have hne : head.qualifiedName.toList ≠ ['\x7b'] := by
      intro heq
      refine (word_qualifiedName hnamed).not_mem (c := '\x7b') (by decide) (by decide) ?_
      rw [heq]
      exact List.mem_singleton_self _
    refine (ofText?_leaf hspace' hbracket' hspace hbracket hne).trans ?_
    rw [qualified_qualifiedName hnamed, Option.map_some, String.ofList_toList]
    rfl
  | leafList =>
    rw [String.toList_append]
    refine (ofText?_leafList hspace' (hread.not_mem (by decide) (by decide)) hbracket' hbracket).trans ?_
    rw [qualified_qualifiedName hnamed, Option.map_some, String.ofList_toList]
    rfl

theorem ofText?_said (h : head.Spelled children) (hkind : head.kind ≠ .module) :
    ofText? head.config ((said head).toList ++ if head.kind.isLeaf then [] else [' ', '\x7b']) = some head.sign := by
  cases hleaf : head.kind.isLeaf with
  | false =>
    rw [if_neg Bool.false_ne_true]
    exact ofText?_said_of_isLeaf_eq_false h hkind hleaf
  | true =>
    rw [if_pos rfl, List.append_nil]
    exact ofText?_said_of_isLeaf h hkind hleaf

theorem ofRow?_row (h : head.Spelled children) : ofRow? (row head).toList = some head.sign := by
  by_cases hkind : head.kind = .module
  · have htype := h.type_eq_none (by rw [hkind]; rfl)
    have hspace : ' ' ∉ head.name.toList := Field.not_mem_of_isIdentifier h.name (by decide)
    have hrow := toList_row_of_module hkind
    have hpieces : Text.pieces ' ' (row head).toList = ["module".toList, head.name.toList, ['\x7b']] := by
      rw [hrow, Text.pieces_append (by decide), Text.pieces_append hspace]
      rfl
    have hread : ofRow? (row head).toList = ofHeading? (row head).toList := by
      rw [hrow]
      rfl
    unfold ofHeading? at hread
    rw [hpieces] at hread
    dsimp only at hread
    unfold EntryHead.sign
    rw [hread, String.ofList_toList, hkind, htype, h.access hkind]
    rfl
  · rw [toList_row hkind]
    cases hconfig : head.config with
    | true =>
      rw [← hconfig, ← ofText?_said h hkind]
      rw [hconfig]
      rfl
    | false =>
      rw [← hconfig, ← ofText?_said h hkind]
      rw [hconfig]
      rfl

end Sign

theorem sign_eq_of_row_eq {head' : EntryHead} {children' : List EntryHead} (h : head.Spelled children)
    (h' : head'.Spelled children') (heq : row head = row head') : head.sign = head'.sign := by
  have hread := Sign.ofRow?_row h
  rw [heq, Sign.ofRow?_row h'] at hread
  exact (Option.some.inj hread).symm

theorem exists_toList_row (head : EntryHead) :
    ∃ c rest, (row head).toList = c :: rest ∧ (c = 'm' ∨ c = 'r' ∨ c = 'R') := by
  by_cases hkind : head.kind = .module
  · exact ⟨'m', _, toList_row_of_module hkind, .inl rfl⟩
  · rw [toList_row hkind]
    cases head.config with
    | true => exact ⟨'r', _, rfl, .inr (.inl rfl)⟩
    | false => exact ⟨'R', _, rfl, .inr (.inr rfl)⟩

theorem single_intercalate {parts : List String} (h : ∀ part ∈ parts, Text.Single part) :
    Text.Single (" ".intercalate parts) :=
  Text.forall_mem_intercalate (Text.single_of_all (by decide)) h

theorem single_row (h : head.Spelled children) : Text.Single (row head) := by
  unfold row header
  rw [Text.single_append]
  constructor
  · split
    · rw [Text.single_append]
      exact ⟨Text.single_of_all (by decide), (word_of_isIdentifier h.name).single⟩
    · next hkind =>
      have hname : Text.Single head.qualifiedName := (word_qualifiedName ⟨h.name, h.prefixId hkind, hkind⟩).single
      rw [describe_eq]
      apply single_intercalate
      rw [List.cons_append, List.forall_mem_cons, List.forall_mem_append, List.forall_mem_singleton]
      refine ⟨?_, ?_, ?_⟩
      · cases head.config <;> exact Text.single_of_all (by decide)
      · intro part hpart
        rw [Option.mem_toList, Option.map_eq_some_iff] at hpart
        obtain ⟨type, htype, rfl⟩ := hpart
        exact (h.type type htype).single
      · unfold decorated
        cases hk : head.kind with
        | list =>
          have hkeys := single_intercalate fun key hkey => (word_of_isIdentifier (h.keys hk key hkey)).single
          rw [Text.single_append, Text.single_append, Text.single_append]
          exact ⟨⟨⟨Text.single_of_all (by decide), hkeys⟩, Text.single_of_all (by decide)⟩, hname⟩
        | leafList | choice | case =>
          rw [Text.single_append]
          exact ⟨Text.single_of_all (by decide), hname⟩
        | module | container | leaf => exact hname
  · split <;> exact Text.single_of_all (by decide)

end Outline

end Yang

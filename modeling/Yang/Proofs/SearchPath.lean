import Yang.Proofs.Text.Trimmed
import Yang.Settings

/-!
This module contains how search paths are put together. Texts are cut into paths that are cut no further, and paths that
are added later stand behind those that were there, as if all texts had been given at once.
-/

namespace Yang

open Yang.Yaml (Value)

section PathList

variable {s part : String} {texts : List String}

theorem pathList_append (texts more : List String) : pathList (texts ++ more) = pathList texts ++ pathList more :=
  List.flatMap_append

theorem pathList_singleton (s : String) :
    pathList [s] = ((Text.splitAt ',' s).map Text.strip).filter (fun part => part != "") :=
  List.flatMap_singleton _ _

theorem pathList_intercalate (h : ∀ part ∈ texts, ',' ∉ part.toList) :
    pathList [",".intercalate texts] = (texts.map Text.strip).filter (fun part => part != "") := by
  rw [pathList_singleton]
  cases texts with
  | nil => rfl
  | cons first more =>
    rw [show "," = String.singleton ',' from rfl, Text.splitAt_intercalate (List.cons_ne_nil first more) h]

structure SinglePath (s : String) : Prop where
  present : s ≠ ""
  undivided : ',' ∉ s.toList
  trimmed : Text.Trimmed Text.isBlank s.toList

theorem singlePath_of_mem_pathList (h : part ∈ pathList texts) : SinglePath part := by
  obtain ⟨s, _, hpart⟩ := List.mem_flatMap.1 h
  obtain ⟨hpart, hpresent⟩ := List.mem_filter.1 hpart
  obtain ⟨piece, hpiece, rfl⟩ := List.mem_map.1 hpart
  refine ⟨bne_iff_ne.1 hpresent, fun hcomma => ?_, ?_⟩
  · rw [Text.toList_strip] at hcomma
    exact Text.not_mem_of_mem_splitAt hpiece (Text.mem_of_mem_trim hcomma)
  · rw [Text.toList_strip]
    exact Text.trimmed_trim Text.isBlank piece.toList

theorem SinglePath.pathList_eq (h : SinglePath s) : pathList [s] = [s] := by
  rw [pathList_singleton, Text.splitAt_of_not_mem h.undivided, List.map_singleton, Text.strip_of_trimmed h.trimmed]
  exact List.filter_cons_of_pos (bne_iff_ne.2 h.present)

theorem pathList_of_singlePath (h : ∀ s ∈ texts, SinglePath s) : pathList texts = texts := by
  induction texts with
  | nil => rfl
  | cons s rest ih =>
    rw [List.forall_mem_cons] at h
    rw [← List.singleton_append, pathList_append, h.1.pathList_eq, ih h.2]

end PathList

/--
Texts that hold paths, as they are given: a list of them, or one by itself.
-/
inductive PathTexts where
  | list (label : Option Nat) (texts : List String)
  | single (s : String)

namespace PathTexts

def texts : PathTexts → List String
  | list _ texts => texts
  | single s => [s]

def value : PathTexts → Value
  | list label texts => .sequence label (texts.map .text)
  | single s => .text s

theorem pathListOf_value (given : PathTexts) : pathListOf given.value = pathList given.texts := by
  cases given with
  | list label texts =>
    change pathList ((texts.map Value.text).map Value.words) = pathList texts
    rw [List.map_map]
    exact congrArg pathList (List.map_id texts)
  | single s => rfl

theorem texts?_map_text (texts : List String) : Settings.texts? (texts.map Value.text) = some texts := by
  unfold Settings.texts?
  rw [List.mapM_map]
  induction texts with
  | nil => rfl
  | cons s rest ih =>
    rw [List.mapM_cons, ih]
    rfl

theorem searchPathOf_value (given : PathTexts) :
    Settings.searchPathOf given.value = .good ((pathList given.texts).map Path.ofText) := by
  cases given with
  | list label texts =>
    unfold Settings.searchPathOf value
    dsimp only [Field.items?, Option.bind_some]
    rw [texts?_map_text]
    rfl
  | single s => rfl

end PathTexts

namespace Settings

def ofSearchPath (value : Value) : Checked Settings :=
  read [(.text "search_path", value)]

theorem ofSearchPath_value (given : PathTexts) :
    ofSearchPath given.value = .good ⟨(pathList given.texts).map Path.ofText, defaultFormat, none, false⟩ := by
  unfold ofSearchPath read
  rw [show Record.withDefault "search_path" [] searchPathOf [(.text "search_path", given.value)]
    = (searchPathOf given.value).under "search_path" from rfl, given.searchPathOf_value]
  rfl

/--
Paths that are added to a search path stand behind its own, as if all texts had been given at once. The texts of a list
are cut one by one, into paths that are cut no further: what stands between the commas of a text, without the blanks
around it.
-/
theorem searchPath_composes (given : PathTexts) (more : List String) (label : Option Nat) :
    (∃ settings, ofSearchPath given.value = .good settings
      ∧ ofSearchPath (PathTexts.list label (given.texts ++ more)).value = .good (settings.withPaths more))
    ∧ pathListOf (PathTexts.list label (given.texts ++ more)).value
      = pathListOf given.value ++ pathListOf (PathTexts.list label more).value
    ∧ (∀ part ∈ pathListOf given.value, SinglePath part)
    ∧ pathListOf (PathTexts.list label (pathListOf given.value)).value = pathListOf given.value
    ∧ ∀ parts : List String, (∀ part ∈ parts, ',' ∉ part.toList) →
      pathListOf (.text (",".intercalate parts)) = (parts.map Text.strip).filter (fun part => part != "") := by
  have hsingle : ∀ part ∈ pathListOf given.value, SinglePath part := by
    rw [given.pathListOf_value]
    exact fun _ => singlePath_of_mem_pathList
  refine ⟨⟨_, ofSearchPath_value given, ?_⟩, ?_, hsingle, ?_, fun _ => pathList_intercalate⟩
  · rw [ofSearchPath_value]
    unfold withPaths PathTexts.texts
    dsimp only
    rw [pathList_append, List.map_append]
  · rw [PathTexts.pathListOf_value, PathTexts.pathListOf_value, PathTexts.pathListOf_value]
    exact pathList_append given.texts more
  · rw [PathTexts.pathListOf_value]
    exact pathList_of_singlePath hsingle

theorem searchPath_composes_blanks :
    pathListOf (PathTexts.list none ["lib,vendor", " more\t,, "]).value = ["lib", "vendor", "more"]
    ∧ (∃ settings, ofSearchPath (PathTexts.list none ["lib,vendor", " more\t,, "]).value = .good settings
      ∧ settings.searchPath.map Path.text = ["lib", "vendor", "more"]
      ∧ ofSearchPath (PathTexts.list none ["lib,vendor", " more\t,, ", "a, b"]).value
        = .good (settings.withPaths ["a, b"]))
    ∧ SinglePath "more"
    ∧ (∀ part ∈ ["a", " b"], ',' ∉ part.toList) ∧ pathListOf (.text "a, b") = ["a", "b"] := by
  have hparts : ∀ part ∈ ["a", " b"], ',' ∉ part.toList := by decide
  obtain ⟨⟨settings, hsettings, hwhole⟩, _, hsingle, _, hjoined⟩ :=
    searchPath_composes (.list none ["lib,vendor", " more\t,, "]) ["a, b"] none
  have hlist : pathListOf (PathTexts.list none ["lib,vendor", " more\t,, "]).value = ["lib", "vendor", "more"] := by
    rfl
  refine ⟨hlist, ⟨settings, hsettings, ?_, hwhole⟩, hsingle "more" (by rw [hlist]; decide), hparts, ?_⟩
  · cases hsettings
    rfl
  · exact hjoined ["a", " b"] hparts

end Settings

end Yang

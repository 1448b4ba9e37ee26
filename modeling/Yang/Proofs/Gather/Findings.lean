import Yang.Proofs.Gather.Step

/-!
This module contains what is reported before any tree is built: problems of the files that are loaded, and findings
about what documents include, import and define. So nothing of it is about a node or a type.
-/

namespace Yang

def Finding.isAboutDocument : Finding → Bool
  | includeNotFound _ => true
  | includeOfOther .. => true
  | duplicate .. => true
  | prefixShadows .. => true
  | prefixTaken .. => true
  | importNotFound _ => true
  | _ => false

def Diagnostic.isFinding (d : Diagnostic) : Bool :=
  match d.cause with
  | .statement .. => true
  | _ => false

def Diagnostic.isPreliminary (d : Diagnostic) : Bool :=
  match d.cause with
  | .statement _ _ finding => finding.isAboutDocument
  | _ => true

theorem Diagnostic.isPreliminary_of_isFinding_eq_false {d : Diagnostic} (h : d.isFinding = false) :
    d.isPreliminary = true := by
  unfold isFinding at h
  unfold isPreliminary
  split
  · next heq =>
    rw [heq] at h
    cases h
  · rfl

namespace Document

theorem isFinding_of_ofReading {label word : String} {entries : Entries} {c : Checked Document} {d : Diagnostic}
    (h : ofReading label word entries c = .error (.problem d)) : d.isFinding = false := by
  unfold ofReading at h
  split at h
  · cases h
  · split at h
    · cases h
      rfl
    · cases h

theorem isFinding_of_ofValue {label : String} {value : Yaml.Value} {d : Diagnostic}
    (h : ofValue label value = .error (.problem d)) : d.isFinding = false := by
  unfold ofValue at h
  split at h
  · split at h
    · exact isFinding_of_ofReading h
    · split at h
      · exact isFinding_of_ofReading h
      · cases h
        rfl
  · cases h
    rfl

theorem isFinding_of_ofValues {source : String} {label : Nat → String} {index : Nat} {values : List Yaml.Value}
    {d : Diagnostic} (h : ofValues source label index values = .error (.problem d)) : d.isFinding = false := by
  induction values generalizing index with
  | nil => cases h
  | cons value rest ih =>
    unfold ofValues at h
    cases hvalue : ofValue (label index) value with
    | error refusal =>
      rw [hvalue] at h
      cases h
      exact isFinding_of_ofValue hvalue
    | ok document =>
      rw [hvalue] at h
      cases hrest : ofValues source label (index + 1) rest with
      | error refusal =>
        rw [hrest] at h
        cases h
        exact ih hrest
      | ok more =>
        rw [hrest] at h
        cases h

theorem isFinding_of_parse {text source : String} {d : Diagnostic} (h : parse text source = .error (.problem d)) :
    d.isFinding = false := by
  unfold parse at h
  split at h
  · next fault _ =>
    cases fault with
    | character | problem =>
      cases h
      rfl
    | scalar => cases h
  · dsimp only at h
    split at h
    · cases h
      rfl
    · exact isFinding_of_ofValues h

end Document

namespace Store

variable {store : Store} {files : Files} {d : Diagnostic}

theorem isFinding_of_readPath {path : Path} (h : (store.readPath files path).1 = .error (.problem d)) :
    d.isFinding = false := by
  unfold readPath at h
  split at h
  · cases h
    rfl
  · split at h
    · cases h
      rfl
    · unfold Store.parse at h
      split at h
      · cases h
      · next hparse =>
        cases h
        exact Document.isFinding_of_parse hparse

theorem eq_error_of_map {α β : Type} {f : α → β} {outcome : Except Refusal α} {refusal : Refusal}
    (h : outcome.map f = .error refusal) : outcome = .error refusal := by
  cases outcome with
  | ok _ => cases h
  | error => exact congrArg Except.error (Except.error.inj h)

theorem isFinding_of_loadPath {name : String} {path : Path}
    (h : (store.loadPath files name path).1 = .error (.problem d)) : d.isFinding = false := by
  unfold loadPath at h
  split at h
  · cases h
  · exact isFinding_of_readPath (eq_error_of_map h)

theorem isFinding_of_find {α : Type} {get : Store → String → Option α} {name : String}
    (h : (find get store files name).1 = .error (.problem d)) : d.isFinding = false := by
  unfold find at h
  split at h
  · cases h
  · have hload := eq_error_of_map h
    unfold load at hload
    split at hload
    · cases hload
    · cases hload
    · exact isFinding_of_loadPath hload

end Store

namespace Gathering

def IsPreliminary (g : Gathering) : Prop :=
  ∀ d ∈ g.problems, d.isPreliminary = true

variable {files : Files} {g : Gathering}

theorem IsPreliminary.report (h : g.IsPreliminary) {d : Diagnostic} (hd : d.isPreliminary = true) :
    (g.report d).IsPreliminary := by
  unfold IsPreliminary Gathering.report
  rw [List.forall_mem_append, List.forall_mem_singleton]
  exact ⟨h, hd⟩

theorem IsPreliminary.look (h : g.IsPreliminary) {α : Type} (get : Store → String → Option α) (files : Files)
    (name : String) :
    (g.look (Store.find get) files name).2.IsPreliminary := by
  unfold Gathering.look
  split
  · exact h
  · split
    · exact h
    · next heq =>
      refine IsPreliminary.report h ?_
      exact Diagnostic.isPreliminary_of_isFinding_eq_false (Store.isFinding_of_find (congrArg Prod.fst heq))
    · exact h

theorem IsPreliminary.mention (h : g.IsPreliminary) (owner : String) (document : Document)
    (mentioned names : List String) :
    (Gathering.mention files owner document mentioned g names).2.2.IsPreliminary := by
  induction names generalizing mentioned g with
  | nil => exact h
  | cons name rest ih =>
    unfold Gathering.mention
    split
    · exact ih h mentioned
    · have hlook := h.look Store.submodule? files name
      change (g.look Store.findSubmodule files name).2.IsPreliminary at hlook
      generalize g.look Store.findSubmodule files name = looked at hlook
      obtain ⟨found, g'⟩ := looked
      dsimp only at hlook ⊢
      cases found with
      | none => exact ih (hlook.report rfl) _
      | some s =>
        dsimp only
        split
        · exact ih hlook _
        · exact ih (hlook.report rfl) _

theorem IsPreliminary.closure (h : g.IsPreliminary) (owner : String) (mentioned : List String) (queue : List Document) :
    (Gathering.closure files owner mentioned g queue).2.IsPreliminary := by
  fun_induction Gathering.closure files owner mentioned g queue with
  | case1 => exact h
  | case2 mentioned g document rest r more g' heq ih =>
    rw [heq] at ih
    exact ih (h.mention _ _ _ _)

theorem IsPreliminary.bindImports (h : g.IsPreliminary) (known : List String) (context : Context)
    (imports : List Import) : (Gathering.bindImports files known context g imports).2.2.IsPreliminary := by
  induction imports generalizing context g with
  | nil => exact h
  | cons i rest ih =>
    unfold Gathering.bindImports
    split
    · exact ih (h.report rfl) context
    · split
      · exact ih (h.report rfl) context
      · have hlook := h.look Store.module? files i.moduleName
        change (g.look Store.findModule files i.moduleName).2.IsPreliminary at hlook
        generalize g.look Store.findModule files i.moduleName = looked at hlook
        obtain ⟨found, g'⟩ := looked
        dsimp only at hlook ⊢
        cases found with
        | none => exact ih (hlook.report rfl) context
        | some m => exact ih hlook _

theorem IsPreliminary.enterAll (h : g.IsPreliminary) (α : Type) [Defined α] (context : Context)
    (table : Table α) (definitions : List α) :
    (Gathering.enterAll α context table g definitions).2.IsPreliminary := by
  induction definitions generalizing table g with
  | nil => exact h
  | cons definition rest ih =>
    unfold Gathering.enterAll
    dsimp only
    split
    · exact ih (h.report rfl) _
    · exact ih h _

theorem IsPreliminary.contextualise (h : g.IsPreliminary) (known : List String) (owner : String)
    (typedefs : Table Typedef) (groupings : Table Grouping) (documents : List Document) :
    (Gathering.contextualise files known owner typedefs groupings g documents).2.2.IsPreliminary := by
  induction documents generalizing typedefs groupings g with
  | nil => exact h
  | cons document rest ih =>
    unfold Gathering.contextualise
    exact ih (((h.bindImports _ _ _).enterAll _ _ _ _).enterAll _ _ _ _) _ _

theorem IsPreliminary.scope (h : g.IsPreliminary) (known : List String) (main : Module) :
    (Gathering.scope files known main g).2.2.IsPreliminary := by
  unfold Gathering.scope
  dsimp only
  have hclosed : (Gathering.closure files main.name [] g [.main main]).2.IsPreliminary := h.closure _ _ _
  unfold Gathering.note
  split <;> exact hclosed.contextualise _ _ _ _ _

theorem Runs.isPreliminary {scopes final : Scopes} {needed : List String} {g' : Gathering}
    (h : Runs files scopes needed g final g') (hg : g.IsPreliminary) : g'.IsPreliminary := by
  induction h with
  | done => exact hg
  | scope _ _ ih => exact ih (hg.scope _ _)

end Gathering

end Yang

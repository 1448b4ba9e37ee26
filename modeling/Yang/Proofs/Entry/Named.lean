import Yang.Entry
import Yang.Proofs.Text.Separator
import Yang.Reference

/-!
This module contains the names of entries. When the name and the prefix of an entry are identifiers, its qualified name
tells both.
-/

namespace Yang

structure EntryHead.Named (head : EntryHead) : Prop where
  name : Field.isIdentifier head.name = true
  prefixId : Field.isIdentifier head.prefixId = true
  kind : head.kind ≠ .module

namespace EntryHead

variable {head : EntryHead}

theorem Named.ofText_qualifiedName (h : head.Named) :
    Reference.ofText head.qualifiedName = ⟨some head.prefixId, head.name⟩ := by
  have hpieces : Text.pieces ':' head.qualifiedName.toList = [head.prefixId.toList, head.name.toList] := by
    have hparts : ∀ part ∈ [head.prefixId.toList, head.name.toList], ':' ∉ part := by
      rw [List.forall_mem_cons, List.forall_mem_singleton]
      exact ⟨Field.not_mem_of_isIdentifier h.prefixId (by decide), Field.not_mem_of_isIdentifier h.name (by decide)⟩
    rw [← Text.pieces_intercalate (List.cons_ne_nil _ _) hparts]
    unfold qualifiedName
    rw [String.toList_append, String.toList_append, List.intercalate_cons_cons, List.intercalate_singleton]
    rfl
  unfold Reference.ofText
  rw [hpieces]
  dsimp only
  rw [List.intercalate_singleton, String.ofList_toList, String.ofList_toList]

theorem Named.slash_not_mem (h : head.Named) : '/' ∉ head.qualifiedName.toList := by
  unfold qualifiedName
  rw [String.toList_append, String.toList_append, List.mem_append, List.mem_append]
  rintro ((hbound | hcolon) | hname)
  · exact Field.not_mem_of_isIdentifier h.prefixId (by decide) hbound
  · revert hcolon
    decide
  · exact Field.not_mem_of_isIdentifier h.name (by decide) hname

theorem qualifiedName_ne_empty (head : EntryHead) : head.qualifiedName ≠ "" := by
  intro heq
  have hcolon : ':' ∈ head.qualifiedName.toList := by
    unfold qualifiedName
    rw [String.toList_append, String.toList_append]
    exact List.mem_append_left _ (List.mem_append_right _ (List.mem_singleton.2 rfl))
  rw [heq] at hcolon
  cases hcolon

end EntryHead

end Yang

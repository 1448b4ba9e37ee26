import Yang.Proofs.Scope.Part
import Yang.Proofs.Typing.Meaning

/-!
This module contains the resolution of types in a part of scopes and in the whole. When the same is known about the
derived types of the part, types have the same result, and the same is found out on the way.
-/

namespace Yang

namespace Work

structure Learns (w : Work) (problems : List Diagnostic) (types : List (DefinitionKey × Option ResolvedType))
    (w' : Work) : Prop where
  problems : w'.problems = w.problems ++ problems
  types : w'.types = w.types ++ types

def Agrees (part : Scopes) (w v : Work) : Prop :=
  ∀ key : DefinitionKey, (part.scope? key.1).isSome = true → w.types.lookup key = v.types.lookup key

def Together (part : Scopes) (w v w' v' : Work) : Prop :=
  ∃ problems types, w.Learns problems types w' ∧ v.Learns problems types v'
    ∧ ∀ p ∈ types, (part.scope? p.1.1).isSome = true

structure Yields {α : Type} (part : Scopes) (w v : Work) (r r' : α × Work) : Prop where
  result : r'.1 = r.1
  together : Together part w v r.2 r'.2

variable {part : Scopes} {w v w' v' w'' v'' : Work}

theorem Learns.lookup {problems : List Diagnostic} {types : List (DefinitionKey × Option ResolvedType)}
    (h : w.Learns problems types w') (key : DefinitionKey) :
    w'.types.lookup key = (w.types.lookup key).or (types.lookup key) := by
  rw [h.types, List.lookup_append]

theorem Together.refl (part : Scopes) (w v : Work) : Together part w v w v :=
  ⟨[], [], ⟨(List.append_nil _).symm, (List.append_nil _).symm⟩, ⟨(List.append_nil _).symm, (List.append_nil _).symm⟩,
    List.forall_mem_nil _⟩

theorem Together.trans (h : Together part w v w' v') (h' : Together part w' v' w'' v'') :
    Together part w v w'' v'' := by
  obtain ⟨problems, types, hw, hv, hown⟩ := h
  obtain ⟨more, others, hw', hv', hown'⟩ := h'
  refine ⟨problems ++ more, types ++ others, ⟨?_, ?_⟩, ⟨?_, ?_⟩, List.forall_mem_append.2 ⟨hown, hown'⟩⟩
  · rw [hw'.problems, hw.problems, List.append_assoc]
  · rw [hw'.types, hw.types, List.append_assoc]
  · rw [hv'.problems, hv.problems, List.append_assoc]
  · rw [hv'.types, hv.types, List.append_assoc]

theorem Together.reportAll (part : Scopes) (w v : Work) (context : Context) (findings : List Finding) :
    Together part w v (w.reportAll context findings) (v.reportAll context findings) :=
  ⟨_, [], ⟨rfl, (List.append_nil _).symm⟩, ⟨rfl, (List.append_nil _).symm⟩, List.forall_mem_nil _⟩

theorem Together.report (part : Scopes) (w v : Work) (context : Context) (finding : Finding) :
    Together part w v (w.report context finding) (v.report context finding) :=
  .reportAll part w v context [finding]

theorem Together.note (part : Scopes) (w v : Work) (n n' : Note) : Together part w v (w.note n) (v.note n') :=
  ⟨[], [], ⟨(List.append_nil _).symm, (List.append_nil _).symm⟩, ⟨(List.append_nil _).symm, (List.append_nil _).symm⟩,
    List.forall_mem_nil _⟩

theorem Agrees.together (h : Agrees part w v) (ht : Together part w v w' v') : Agrees part w' v' := by
  obtain ⟨_, _, hw, hv, _⟩ := ht
  intro key hkey
  rw [hw.lookup, hv.lookup, h key hkey]

theorem Agrees.remember (h : Agrees part w v) {key : DefinitionKey} (hkey : (part.scope? key.1).isSome = true)
    (type : Option ResolvedType) : Together part w v (w.remember key type) (v.remember key type) := by
  unfold Work.remember
  rw [← h key hkey]
  split
  · exact .refl part w v
  · refine ⟨[], [(key, type)], ⟨(List.append_nil _).symm, rfl⟩, ⟨(List.append_nil _).symm, rfl⟩, ?_⟩
    exact List.forall_mem_singleton.2 hkey

end Work

namespace Scopes

variable {part whole : Scopes} {w v : Work}

theorem typing_part (h : part.Part whole) (hc : part.Coherent) (hagrees : w.Agrees part v) :
    (∀ inside context reference declared, part.Shows context →
      Work.Yields part w v (part.typeOf inside context reference declared w)
        (whole.typeOf inside context reference declared v))
    ∧ ∀ inside found isThere, ∀ isThere', part.Shows found.context →
      (part.scope? found.context.owner).isSome = true →
      Work.Yields part w v (part.typeOfTypedef inside found isThere w) (whole.typeOfTypedef inside found isThere' v) := by
  apply typeOf.mutual_induct part w
    (fun inside context reference declared => part.Shows context →
      Work.Yields part w v (part.typeOf inside context reference declared w)
        (whole.typeOf inside context reference declared v))
    (fun inside found isThere => ∀ isThere', part.Shows found.context →
      (part.scope? found.context.owner).isSome = true →
      Work.Yields part w v (part.typeOfTypedef inside found isThere w) (whole.typeOfTypedef inside found isThere' v))
  · intro inside context reference declared hb _
    rw [typeOf_builtin hb, typeOf_builtin hb]
    exact ⟨rfl, .refl part w v⟩
  · intro inside context reference declared hb finding hfinding hshows
    rw [Bool.not_eq_true] at hb
    rw [typeOf_of_resolve_eq_error hb hfinding, typeOf_of_resolve_eq_error hb ((h.resolve hshows _).trans hfinding)]
    exact ⟨rfl, .report part w v context finding⟩
  · intro inside context reference declared hb found hfound base w' _ ih hshows
    rw [Bool.not_eq_true] at hb
    have hfound' := (h.resolve hshows reference).trans hfound
    rw [typeOf_of_resolve_eq_ok hb hfound, typeOf_of_resolve_eq_ok hb hfound']
    obtain ⟨hsame, htogether⟩ := ih (mem_definitions_of_resolve hfound') (shows_of_resolve hfound)
      (isSome_scope?_of_resolve hc hfound)
    dsimp only
    exact ⟨by rw [hsame], htogether⟩
  · intro inside found isThere known hknown isThere' _ hown
    rw [typeOfTypedef, typeOfTypedef, ← hagrees found.key hown, hknown]
    exact ⟨rfl, .refl part w v⟩
  · intro inside found isThere hnew hin isThere' _ hown
    rw [typeOfTypedef, typeOfTypedef, ← hagrees found.key hown, hnew]
    dsimp only
    rw [dif_pos hin, dif_pos hin]
    have hreport := Work.Together.report part w v found.context (.recursive .typedef found.definition.name)
    exact ⟨rfl, hreport.trans ((hagrees.together hreport).remember hown none)⟩
  · intro inside found isThere hnew hout inner w' heq ih isThere' hshows hown
    obtain ⟨hsame, htogether⟩ := ih hshows
    rw [typeOfTypedef, typeOfTypedef, ← hagrees found.key hown, hnew]
    dsimp only
    rw [dif_neg hout, dif_neg hout]
    have hafter := @Work.Agrees.remember part _ _ (hagrees.together htogether) found.key hown
    rw [hsame]
    refine ⟨?_, htogether.trans (hafter _)⟩
    rw [(hagrees.together (htogether.trans (hafter _))) found.key hown]

variable {context : Context}

theorem Denotes.in_part (h : part.Part whole) {reference : String} {declared : Restrictions} {type : ResolvedType}
    (hd : whole.Denotes context reference declared type) (hshows : part.Shows context) :
    part.Denotes context reference declared type := by
  induction hd with
  | builtin hb => exact .builtin hb
  | derived hb hfound _ ih =>
    rw [h.resolve hshows] at hfound
    exact .derived hb hfound (ih (shows_of_resolve hfound))

theorem Defines.in_part (h : part.Part whole) {l : Located Typedef} {type : ResolvedType} (hd : whole.Defines l type)
    (hshows : part.Shows l.context) : part.Defines l type := by
  obtain ⟨inner, hinner, rfl⟩ := hd
  exact ⟨inner, hinner.in_part h hshows, rfl⟩

end Scopes

end Yang

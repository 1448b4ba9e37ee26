import Yang.Proofs.Schema.Reordered
import Yang.Proofs.Tree.Grafted
import Yang.Proofs.Typing.Alike

/-!
This module contains what the trees of scopes that are alike have in common whatever the nodes in their documents: heads
are made and augments find their targets in the same way.
-/

namespace Yang

variable {exact : Prop} {r : Document → Document → Prop}

theorem Scope.Alike.main_eq (hl : Likeness exact r) {scope scope' : Scope} (hs : scope.Alike r scope') :
    scope.main.asOwner = scope'.main.asOwner ∧ scope.main.head = scope'.main.head := by
  have houtline := hl.outline hs.main
  have hname : scope.main.name = scope'.main.name := Document.name_eq houtline
  have hbody : scope.main.body.Like scope'.main.body := Document.body_like houtline
  unfold Module.asOwner Module.head EntryHead.plain
  rw [hname, hbody.prefixId, hbody.description, Document.uri_eq houtline]
  exact ⟨rfl, rfl⟩

structure Graft.Alike (r : Document → Document → Prop) (graft graft' : Graft) : Prop where
  context : graft.context.Alike r graft'.context
  target : graft.augment.target = graft'.augment.target

namespace Scopes

variable {scopes scopes' : Scopes}

theorem makeHead_alike (hl : Likeness exact r) (ht : Corresponds Typedef (fun _ => Eq) r)
    (hs : List.Forall₂ (Scope.Alike r) scopes scopes') {context context' : Context} (hc : context.Alike r context')
    {node node' : Node} (hbare : node.bare = node'.bare) (spot : Spot) (owner : Owner) (w : Work) :
    scopes.makeHead spot context owner node w = scopes'.makeHead spot context' owner node' w := by
  have hkind : node.kind = node'.kind := by rw [← Node.kind_bare, hbare, Node.kind_bare]
  have hname : node.name = node'.name := by rw [← Node.name_bare, hbare, Node.name_bare]
  have hconfig : node.config = node'.config := by rw [← Node.config_bare, hbare, Node.config_bare]
  have htyped : node.typed? = node'.typed? := by rw [← Node.typed?_bare, hbare, Node.typed?_bare]
  have hmake : node.makeHead = node'.makeHead := by rw [← Node.makeHead_bare, hbare, Node.makeHead_bare]
  unfold makeHead
  rw [hkind, hname, hconfig, htyped, hmake, hc.report_eq hl]
  dsimp only
  split
  · next reference declared _ => rw [(typing_alike hl ht hs _).1 _ _ _ _ _ hc]
  · rfl

theorem settle_alike (hl : Likeness exact r) (ht : Corresponds Typedef (fun _ => Eq) r)
    (hs : List.Forall₂ (Scope.Alike r) scopes scopes') {found found' : List (Located Typedef)}
    (hfound : List.Forall₂ (Located.Alike (fun _ => Eq) r) found found')
    (isThere : ∀ l ∈ found, l ∈ scopes.definitions Typedef) (isThere' : ∀ l ∈ found', l ∈ scopes'.definitions Typedef)
    (w : Work) : scopes.settle found isThere w = scopes'.settle found' isThere' w := by
  induction hfound generalizing w with
  | nil => rfl
  | cons hfirst _ ih =>
    unfold settle
    dsimp only
    rw [(typing_alike hl ht hs w).2 _ _ (isThere _ List.mem_cons_self) _ (isThere' _ List.mem_cons_self) hfirst, ih]

section

variable {graft graft' : Graft} (hl : Likeness exact r) (hs : List.Forall₂ (Scope.Alike r) scopes scopes')
  (hg : graft.Alike r graft')

include hl hs hg

theorem moduleOf_alike (segment : Reference) :
    (∃ finding, scopes.moduleOf graft segment = .error finding ∧ scopes'.moduleOf graft' segment = .error finding)
      ∨ ∃ m m', scopes.moduleOf graft segment = .ok m ∧ scopes'.moduleOf graft' segment = .ok m'
        ∧ m.name = m'.name ∧ m.uri = m'.uri := by
  unfold moduleOf
  rw [← hg.context.moduleOf?_eq, ← hg.target]
  cases graft.context.moduleOf? segment.prefixId with
  | none => exact .inl ⟨_, rfl, rfl⟩
  | some name =>
    dsimp only
    have hscope := scope?_alike hl hs name
    generalize scopes.scope? name = found at hscope
    generalize scopes'.scope? name = found' at hscope
    cases hscope with
    | none => exact .inl ⟨_, rfl, rfl⟩
    | @some scope scope' hscope =>
      have houtline := hl.outline hscope.main
      exact .inr ⟨_, _, rfl, rfl, Document.name_eq houtline, Document.uri_eq houtline⟩

theorem follow_alike (entry : Entry) (names : List String) (segments : List Reference) :
    scopes.follow graft entry names segments = scopes'.follow graft' entry names segments := by
  induction segments generalizing entry names with
  | nil => rfl
  | cons segment rest ih =>
    unfold follow
    rcases moduleOf_alike hl hs hg segment with ⟨finding, h, h'⟩ | ⟨m, m', h, h', _, huri⟩
    · rw [h, h']
    · rw [h, h']
      dsimp only
      rw [huri]
      simp only [ih]

theorem target_alike (forest : Forest) : scopes.target forest graft = scopes'.target forest graft' := by
  have hsegments : graft.augment.segments = graft'.augment.segments := by
    unfold Augment.segments
    rw [hg.target]
  unfold target
  rw [hsegments, hg.target]
  cases graft'.augment.segments.map Reference.ofText with
  | nil => rfl
  | cons segment rest =>
    dsimp only
    rcases moduleOf_alike hl hs hg segment with ⟨finding, h, h'⟩ | ⟨m, m', h, h', hname, _⟩
    · rw [h, h']
    · rw [h, h']
      dsimp only
      rw [hname]
      simp only [follow_alike hl hs hg]

theorem ownerOf_alike : scopes.ownerOf graft = scopes'.ownerOf graft' := by
  unfold ownerOf
  rw [← hg.context.owner]
  have hscope := scope?_alike hl hs graft.context.owner
  generalize scopes.scope? graft.context.owner = found at hscope
  generalize scopes'.scope? graft.context.owner = found' at hscope
  cases hscope with
  | none => rfl
  | some hscope => rw [Option.map_some, Option.map_some, (hscope.main_eq hl).1]

end

end Scopes

end Yang

import Yang.Tree.Build

/-!
This module contains the rules by which nodes are added to the children of an entry, one for each thing that can become
of a node. They say the same as the function that adds nodes, without its recursion.
-/

namespace Yang.Scopes

inductive Adds (scopes : Scopes) (owner : Owner) :
    List DefinitionKey → Spot → Context → List Node → List Entry → Work → List Entry → Work → Prop
  | nil {inside spot context children w} :
    Adds scopes owner inside spot context [] children w children w
  | unresolved {inside spot context head rest children w children' w'} {finding : Finding}
    (h : (scopes.resolve context head.grouping : Except Finding (Located Grouping)) = .error finding)
    (more : Adds scopes owner inside spot context rest children (w.report context finding) children' w') :
    Adds scopes owner inside spot context (.uses head :: rest) children w children' w'
  | recursive {inside spot context head rest children w children' w'} {found : Located Grouping}
    (h : scopes.resolve context head.grouping = .ok found) (hin : inside.contains found.key = true)
    (more : Adds scopes owner inside spot context rest children
      (w.report context (.recursive .grouping found.definition.name)) children' w') :
    Adds scopes owner inside spot context (.uses head :: rest) children w children' w'
  | expanded {inside spot context head rest children w children₁ w₁ children' w'} {found : Located Grouping}
    (h : scopes.resolve context head.grouping = .ok found) (hout : inside.contains found.key = false)
    (inner : Adds scopes owner (found.key :: inside) spot found.context found.definition.nodes children w
      children₁ w₁)
    (more : Adds scopes owner inside spot context rest children₁ w₁ children' w') :
    Adds scopes owner inside spot context (.uses head :: rest) children w children' w'
  | misplaced {inside spot context node rest children w children' w'} {finding : Finding}
    (hkind : node.kind ≠ .uses) (h : node.misplaced? spot children = some finding)
    (more : Adds scopes owner inside spot context rest children (w.report context finding) children' w') :
    Adds scopes owner inside spot context (node :: rest) children w children' w'
  | placed {inside spot context node rest children w head w₁ inner w₂ children' w'}
    (hkind : node.kind ≠ .uses) (h : node.misplaced? spot children = none)
    (hhead : scopes.makeHead spot context owner node w = (head, w₁))
    (inside_ : Adds scopes owner inside (spot.down head) context node.children [] w₁ inner w₂)
    (more : Adds scopes owner inside spot context rest (children ++ [.mk head inner])
      (w₂.reportAll context (node.findings head inner)) children' w') :
    Adds scopes owner inside spot context (node :: rest) children w children' w'

variable {scopes : Scopes} {owner : Owner}

theorem makeHead_cases (scopes : Scopes) (spot : Spot) (context : Context) (owner : Owner) (node : Node) (w : Work) :
    ∃ w₁, (w₁ = w ∨ w₁ = w.report context (.writableUnderState node.kind node.name))
      ∧ ((node.typed? = none
          ∧ scopes.makeHead spot context owner node w = (node.makeHead owner spot.head.config none, w₁))
        ∨ ∃ reference declared, node.typed? = some (reference, declared)
          ∧ scopes.makeHead spot context owner node w
            = (node.makeHead owner spot.head.config (scopes.typeOf [] context reference declared w₁).1,
              (scopes.typeOf [] context reference declared w₁).2)) := by
  unfold makeHead
  refine ⟨if node.config = some true ∧ spot.head.config = false then
    w.report context (.writableUnderState node.kind node.name) else w, ?_, ?_⟩
  · split
    · exact .inr rfl
    · exact .inl rfl
  · cases node.typed? with
    | none => exact .inl ⟨rfl, rfl⟩
    | some typed => exact .inr ⟨typed.1, typed.2, rfl, rfl⟩

theorem adds_addNodes (scopes : Scopes) (owner : Owner) (inside : List DefinitionKey) (spot : Spot)
    (context : Context) (nodes : List Node) (children : List Entry) (w : Work) :
    Adds scopes owner inside spot context nodes children w
      (scopes.addNodes inside spot context owner nodes children w).1
      (scopes.addNodes inside spot context owner nodes children w).2 := by
  fun_induction addNodes scopes inside spot context owner nodes children w with
  | case1 inside spot context children w => exact .nil
  | case2 inside spot context children w head rest children₁ w₁ heq ihinner ihmore =>
    split at heq
    · next finding h =>
      cases heq
      exact .unresolved h ihmore
    · next found h =>
      split at heq
      · next hin =>
        cases heq
        exact .recursive h hin ihmore
      · next hout =>
        have hinner := ihinner found h hout
        rw [heq] at hinner
        exact .expanded h (by simpa using hout) hinner ihmore
  | case3 inside spot context children w node rest hne children₁ w₁ heq ihinner ihmore =>
    have hkind : node.kind ≠ .uses := by
      intro hk
      cases node with
      | uses head => exact hne head rfl
      | _ => cases hk
    split at heq
    · next finding h =>
      cases heq
      exact .misplaced hkind h ihmore
    · next h =>
      cases heq
      exact .placed hkind h rfl (ihinner _ _) ihmore

theorem adds_of_addNodes {inside : List DefinitionKey} {spot : Spot} {context : Context} {nodes : List Node}
    {children children' : List Entry} {w w' : Work}
    (h : scopes.addNodes inside spot context owner nodes children w = (children', w')) :
    Adds scopes owner inside spot context nodes children w children' w' := by
  have hadds := adds_addNodes scopes owner inside spot context nodes children w
  rw [h] at hadds
  exact hadds

theorem Adds.eq_addNodes {inside : List DefinitionKey} {spot : Spot} {context : Context} {nodes : List Node}
    {children children' : List Entry} {w w' : Work}
    (h : Adds scopes owner inside spot context nodes children w children' w') :
    scopes.addNodes inside spot context owner nodes children w = (children', w') := by
  have hne : ∀ {node : Node}, node.kind ≠ .uses → ∀ head, node = .uses head → False := by
    rintro node hkind head rfl
    exact hkind rfl
  induction h with
  | nil => rw [addNodes]
  | unresolved h _ ih =>
    rw [addNodes]
    split
    next heq =>
    split at heq
    · next herr =>
      rw [h] at herr
      cases herr
      cases heq
      exact ih
    · next hok => rw [h] at hok; cases hok
  | recursive h hin _ ih =>
    rw [addNodes]
    split
    next heq =>
    split at heq
    · next herr => rw [h] at herr; cases herr
    · next hok =>
      rw [h] at hok
      cases hok
      rw [dif_pos hin] at heq
      cases heq
      exact ih
  | expanded h hout _ _ ihinner ihmore =>
    rw [addNodes]
    split
    next heq =>
    split at heq
    · next herr => rw [h] at herr; cases herr
    · next hok =>
      rw [h] at hok
      cases hok
      rw [dif_neg (Bool.eq_false_iff.1 hout), ihinner] at heq
      cases heq
      exact ihmore
  | misplaced hkind h _ ih =>
    rw [addNodes.eq_3 _ _ _ _ _ _ _ _ _ (hne hkind), h]
    exact ih
  | placed hkind h hhead _ _ ihinner ihmore =>
    rw [addNodes.eq_3 _ _ _ _ _ _ _ _ _ (hne hkind), h]
    dsimp only
    rw [hhead]
    dsimp only
    rw [ihinner]
    exact ihmore

end Yang.Scopes

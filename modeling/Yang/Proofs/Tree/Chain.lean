import Yang.Proofs.Tree.Grafted
import Yang.Proofs.Typing.Way

/-!
This module contains chains of references to groupings, each of them in the nodes of the grouping before it. Nodes that
come through a grouping back to that grouping have no end, so they grow into nothing: where trees are built without a
problem, no chain comes back to a grouping that it came through.
-/

namespace Yang

inductive Uses.StandsIn (head : Uses) : List Node → Prop
  | here {rest : List Node} : StandsIn head (.uses head :: rest)
  | inner {node : Node} {rest : List Node} (h : StandsIn head node.children) : StandsIn head (node :: rest)
  | later {node : Node} {rest : List Node} (h : StandsIn head rest) : StandsIn head (node :: rest)

namespace Scopes

/--
Chains of references to groupings: the first reference stands in nodes of a document, and each further one in the nodes
of the grouping that the one before it stands for.
-/
inductive Chain (scopes : Scopes) : Context → List Node → List (Located Grouping) → Prop
  | nil {context : Context} {nodes : List Node} : Chain scopes context nodes []
  | cons {context : Context} {nodes : List Node} {head : Uses} {found : Located Grouping}
    {chain : List (Located Grouping)} (hstands : head.StandsIn nodes)
    (hselects : scopes.Selects context head.grouping found)
    (hrest : Chain scopes found.context found.definition.nodes chain) : Chain scopes context nodes (found :: chain)

def Starts (scopes : Scopes) (context : Context) (nodes : List Node) : Prop :=
  scopes.Shows context
    ∧ (nodes = context.document.body.nodes ∨ ∃ augment ∈ context.document.body.augments, nodes = augment.nodes)

def Returns (scopes : Scopes) : Prop :=
  ∃ (context : Context) (nodes : List Node) (chain : List (Located Grouping)) (found : Located Grouping),
    scopes.Starts context nodes ∧ scopes.Chain context nodes (chain ++ [found])
      ∧ found.key ∈ chain.map Located.key

variable {scopes : Scopes} {owner : Owner} {context : Context} {nodes more : List Node} {head : Uses}
  {found : Located Grouping} {chain : List (Located Grouping)}

theorem Chain.mono (h : scopes.Chain context nodes chain)
    (hsub : ∀ head : Uses, head.StandsIn nodes → head.StandsIn more) :
    scopes.Chain context more chain := by
  cases h with
  | nil => exact .nil
  | cons hstands hselects hrest => exact .cons (hsub _ hstands) hselects hrest

theorem Chain.mem_definitions (hc : scopes.Coherent) (h : scopes.Chain context nodes chain) :
    ∀ l ∈ chain, l ∈ scopes.definitions Grouping := by
  induction h with
  | nil => exact List.forall_mem_nil _
  | cons _ hselects _ ih =>
    exact List.forall_mem_cons.2 ⟨mem_definitions_of_resolve (hc.selects_iff.1 hselects), ih⟩

theorem Grows.enters {inside : List DefinitionKey} {parent : EntryHead} {grown : List Entry}
    (h : Grows scopes owner inside context parent nodes grown) (hstands : head.StandsIn nodes)
    (hfound : scopes.resolve context head.grouping = .ok found) :
    found.key ∉ inside ∧ ∃ parent' grown',
      Grows scopes owner (found.key :: inside) found.context parent' found.definition.nodes grown' := by
  induction h with
  | nil => cases hstands
  | uses h hout hgrown _ _ ihmore =>
    cases hstands with
    | here =>
      rw [h] at hfound
      cases hfound
      exact ⟨by simpa using hout, _, _, hgrown⟩
    | inner hinner => cases hinner
    | later hlater => exact ihmore hlater hfound
  | node hfits _ _ _ _ _ ihinner ihmore =>
    cases hstands with
    | here => exact (hfits.noUses rfl).elim
    | inner hinner => exact ihinner hinner hfound
    | later hlater => exact ihmore hlater hfound

theorem Grows.nodup_of_chain (hc : scopes.Coherent) {inside : List DefinitionKey} {parent : EntryHead}
    {grown : List Entry} (h : Grows scopes owner inside context parent nodes grown)
    (hchain : scopes.Chain context nodes chain) :
    (chain.map Located.key).Nodup ∧ ∀ key ∈ chain.map Located.key, key ∉ inside := by
  induction hchain generalizing inside parent grown with
  | nil => exact ⟨List.nodup_nil, List.forall_mem_nil _⟩
  | cons hstands hselects _ ih =>
    obtain ⟨hout, _, _, hgrown⟩ := h.enters hstands (hc.selects_iff.1 hselects)
    obtain ⟨hnodup, houtside⟩ := ih hgrown
    rw [List.map_cons, List.nodup_cons, List.forall_mem_cons]
    refine ⟨⟨fun hin => houtside _ hin List.mem_cons_self, hnodup⟩, hout, fun key hkey hin => ?_⟩
    exact houtside key hkey (List.mem_cons_of_mem _ hin)

theorem GrowsAll.grows {parent : EntryHead} {contexts : List Context} {grown : List Entry}
    (h : GrowsAll scopes owner parent contexts grown) :
    ∀ context ∈ contexts, ∃ grown', Grows scopes owner [] context parent context.document.body.nodes grown' := by
  induction h with
  | nil => exact List.forall_mem_nil _
  | cons hgrows _ ih => exact List.forall_mem_cons.2 ⟨⟨_, hgrows⟩, ih⟩

theorem GraftedAll.grows {forest forest' : Forest} {grafts : List Graft}
    (h : GraftedAll scopes forest grafts forest') :
    ∀ graft ∈ grafts, ∃ parent grown,
      Grows scopes (scopes.ownerOf graft) [] graft.context parent graft.augment.nodes grown := by
  induction h with
  | nil => exact List.forall_mem_nil _
  | cons hstep _ ih => exact List.forall_mem_cons.2 ⟨⟨_, _, hstep.grows⟩, ih⟩

theorem grows_of_planted {list : List Scope} {trees : List Entry} (h : List.Forall₂ scopes.Planted list trees)
    {scope : Scope} (hs : scope ∈ list) (hcontext : context ∈ scope.contexts) :
    ∃ owner parent grown, Grows scopes owner [] context parent context.document.body.nodes grown := by
  induction h with
  | nil => cases hs
  | cons hplanted _ ih =>
    rcases List.mem_cons.1 hs with rfl | hs
    · obtain ⟨grown, hgrows⟩ := hplanted.grown.grows context hcontext
      exact ⟨_, _, grown, hgrows⟩
    · exact ih hs

theorem Flourishes.grows {forest : Forest} (h : scopes.Flourishes forest) (hstarts : scopes.Starts context nodes) :
    ∃ owner parent grown, Grows scopes owner [] context parent nodes grown := by
  obtain ⟨trees, order, hplanted, hperm, hgrafted⟩ := h
  obtain ⟨⟨scope, hs, hcontext⟩, rfl | ⟨augment, haugment, rfl⟩⟩ := hstarts
  · exact grows_of_planted hplanted hs hcontext
  · have hgraft : Graft.mk context augment ∈ scopes.grafts :=
      List.mem_flatMap.2 ⟨scope, hs, List.mem_flatMap.2 ⟨context, hcontext, List.mem_map_of_mem haugment⟩⟩
    obtain ⟨parent, grown, hgrows⟩ := hgrafted.grows _ (hperm.mem_iff.2 hgraft)
    exact ⟨_, parent, grown, hgrows⟩

theorem Flourishes.not_returns (hc : scopes.Coherent) {forest : Forest} (h : scopes.Flourishes forest) :
    ¬ scopes.Returns := by
  rintro ⟨context, nodes, chain, found, hstarts, hchain, hin⟩
  obtain ⟨_, _, _, hgrows⟩ := h.grows hstarts
  have hnodup := (hgrows.nodup_of_chain hc hchain).1
  rw [List.map_append, List.map_singleton, List.nodup_append] at hnodup
  exact hnodup.2.2 _ hin _ (List.mem_singleton_self _) rfl

end Scopes

end Yang

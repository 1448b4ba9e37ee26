import Yang.Schema.Stream

/-!
This module contains what readings see to: something holds of every result that a reading can have. What the readers of
nodes see to at one node holds of all nodes of a document, at any depth, and what holds of the documents of values holds
of the documents of a text.
-/

namespace Yang

open Yang.Yaml (Value)

namespace Checked

variable {α β : Type} {p : α → Prop} {q : β → Prop} {reading : Checked α}

def Ensures (reading : Checked α) (p : α → Prop) : Prop :=
  ∀ a, reading = .good a → p a

theorem Ensures.imp {p' : α → Prop} (h : reading.Ensures p) (himp : ∀ a, p a → p' a) : reading.Ensures p' :=
  fun a ha => himp a (h a ha)

theorem ensures_good {a : α} (h : p a) : (good a).Ensures p := by
  rintro _ ⟨⟩
  exact h

theorem ensures_bad {issues : List Issue} : (bad issues).Ensures p :=
  nofun

theorem Ensures.map {f : α → β} (h : reading.Ensures fun a => q (f a)) : (f <$> reading).Ensures q := by
  cases reading with
  | good a => exact ensures_good (h a rfl)
  | bad => exact ensures_bad

theorem Ensures.seq {f : Checked (α → β)} (h : f.Ensures fun g => reading.Ensures fun a => q (g a)) :
    (f <*> reading).Ensures q := by
  intro b hb
  obtain ⟨g, a, hg, ha, rfl⟩ := ap_eq_good.1 hb
  exact h g hg a ha

theorem Ensures.under (h : reading.Ensures p) (part : String) : (reading.under part).Ensures p :=
  fun a ha => h a (under_eq_good.1 ha)

theorem Ensures.whenGood {check : α → Option Complaint} (h : reading.Ensures fun a => check a = none → p a) :
    (reading.whenGood check).Ensures p := by
  cases reading with
  | good a =>
    unfold Checked.whenGood
    dsimp only
    split
    · next hnone => exact ensures_good (h a rfl hnone)
    · exact ensures_bad
  | bad => exact ensures_bad

theorem Ensures.andAlso (h : reading.Ensures p) (more : List Issue) : (reading.andAlso more).Ensures p := by
  unfold Checked.andAlso
  split
  · exact h
  · exact ensures_bad
  · exact ensures_bad

end Checked

open Checked

theorem Field.listFrom_ensures {α : Type} {read : Value → Checked α} {p : α → Prop}
    (hread : ∀ value, (read value).Ensures p)
    (index : Nat) (items : List Value) : (listFrom read index items).Ensures fun results => ∀ a ∈ results, p a := by
  induction items generalizing index with
  | nil => exact ensures_good (List.forall_mem_nil _)
  | cons item rest ih =>
    apply Ensures.seq
    apply Ensures.map
    intro a ha more hmore
    rw [List.forall_mem_cons]
    exact ⟨(hread item).under _ a ha, ih (index + 1) more hmore⟩

namespace Record

variable {α : Type} {read : Value → Checked α} {p : α → Prop}

theorem required_ensures (hread : ∀ value, (read value).Ensures p) (key : Key) (entries : Entries) :
    (required key read entries).Ensures p := by
  unfold required
  split
  · exact (hread _).under _
  · exact ensures_bad

theorem list_ensures (hread : ∀ value, (read value).Ensures p) (key : Key) (entries : Entries) :
    (list key read entries).Ensures fun results => ∀ a ∈ results, p a := by
  unfold list withDefault
  split
  · apply Ensures.under
    unfold Field.list
    split
    · exact Field.listFrom_ensures hread _ _
    · exact ensures_bad
  · exact ensures_good (List.forall_mem_nil _)

theorem closed_ensures {reading : Checked α} (h : reading.Ensures p) (keys : List Key) (entries : Entries) :
    (closed keys entries reading).Ensures p := by
  unfold closed
  split
  · exact ensures_bad
  · exact h.andAlso _

theorem read_ensures {fields : Entries → Checked α} (h : ∀ entries, (fields entries).Ensures p) (model : String)
    (keys : List Key) (value : Value) : (Record.read model keys fields value).Ensures p := by
  unfold Record.read
  split
  · exact closed_ensures (h _) _ _
  · exact ensures_bad

end Record

open Record

namespace Node

variable {p : Node → Prop}

def Assembles (p : Node → Prop) : Prop :=
  ∀ {children : Checked (List Node)}, (children.Ensures fun nodes => ∀ node ∈ nodes, p node) →
    ∀ kind entries, (assemble kind entries children).Ensures p

theorem guarded_ensures {read : Trail → Checked Node} (hread : ∀ trail, (read trail).Ensures p)
    (trail : Trail) (label : Option Nat) (kind : NodeKind) : (guarded trail label kind read).Ensures p := by
  unfold guarded
  split
  · exact hread _
  · split
    · exact ensures_bad
    · exact hread _

mutual

theorem readWith_ensures (hp : Assembles p) (trail : Trail) (known : Option NodeKind) (value : Value) :
    (readWith trail known value).Ensures p := by
  match value with
  | .mapping label entries =>
    unfold readWith
    split
    · next kind =>
      apply guarded_ensures
      intro trail
      exact hp (readChildren_ensures hp trail _ entries) _ _
    · split
      · apply Ensures.under
        apply guarded_ensures
        intro trail
        exact hp (readChildren_ensures hp trail _ entries) _ _
      · exact ensures_bad
  | .null | .bool _ | .int _ | .real _ | .text _ | .octets _ | .date _ | .moment _ | .sequence _ _ | .set _
  | .pair _ _ =>
    unfold readWith
    cases known <;> exact ensures_bad

theorem readChildren_ensures (hp : Assembles p) (trail : Trail) (wanted : Option String) (entries : Entries) :
    (readChildren trail wanted entries).Ensures fun nodes => ∀ node ∈ nodes, p node := by
  match entries with
  | [] =>
    unfold readChildren
    exact ensures_good (List.forall_mem_nil _)
  | (key, value) :: rest =>
    unfold readChildren
    split
    · split
      · apply Ensures.under
        match value with
        | .sequence _ items => exact readItems_ensures hp _ _ _ items
        | .set items => exact readItems_ensures hp _ _ _ items
        | .pair first second =>
          apply Ensures.seq
          apply Ensures.map
          intro a ha b hb
          rw [List.forall_mem_cons, List.forall_mem_singleton]
          exact ⟨(readWith_ensures hp _ _ first).under _ a ha, (readWith_ensures hp _ _ second).under _ b hb⟩
        | .null | .bool _ | .int _ | .real _ | .text _ | .octets _ | .date _ | .moment _ | .mapping _ _ =>
          exact ensures_bad
      · exact readChildren_ensures hp _ _ rest
    · exact readChildren_ensures hp _ _ rest

theorem readItems_ensures (hp : Assembles p) (trail : Trail) (known : Option NodeKind) (index : Nat)
    (items : List Value) :
    (readItems trail known index items).Ensures fun nodes => ∀ node ∈ nodes, p node := by
  match items with
  | [] =>
    unfold readItems
    exact ensures_good (List.forall_mem_nil _)
  | item :: rest =>
    unfold readItems
    apply Ensures.seq
    apply Ensures.map
    intro node hnode more hmore
    rw [List.forall_mem_cons]
    exact ⟨(readWith_ensures hp _ _ item).under _ node hnode, readItems_ensures hp _ _ _ rest more hmore⟩

end

theorem readBody_ensures (hp : Assembles p) (entries : Entries) :
    (readBody entries).Ensures fun nodes => ∀ node ∈ nodes, p node :=
  readChildren_ensures hp _ _ _

end Node

structure Body.Every (p : Node → Prop) (body : Body) : Prop where
  groupings : ∀ g ∈ body.groupings, ∀ node ∈ g.nodes, p node
  nodes : ∀ node ∈ body.nodes, p node
  augments : ∀ a ∈ body.augments, ∀ node ∈ a.nodes, p node

section

variable {p : Node → Prop}

theorem Grouping.read_ensures (hp : Node.Assembles p) (value : Value) :
    (read value).Ensures fun g => ∀ node ∈ g.nodes, p node := by
  refine Record.read_ensures (fun entries => ?_) _ _ _
  iterate 2 apply Ensures.seq
  apply Ensures.map
  intro _ _ _ _ nodes hnodes
  exact Node.readBody_ensures hp _ nodes hnodes

theorem Augment.read_ensures (hp : Node.Assembles p) (value : Value) :
    (read value).Ensures fun a => ∀ node ∈ a.nodes, p node := by
  apply Ensures.whenGood
  refine Record.read_ensures (fun entries => ?_) _ _ _
  iterate 2 apply Ensures.seq
  apply Ensures.map
  intro _ _ _ _ nodes hnodes _
  exact Node.readBody_ensures hp _ nodes hnodes

theorem Body.every_ensures (hp : Node.Assembles p) (entries : Entries) : (fields entries).Ensures (Every p) := by
  unfold fields
  iterate 10 apply Ensures.seq
  apply Ensures.map
  iterate 8 intro _ _
  intro groupings hgroupings nodes hnodes augments haugments
  exact ⟨list_ensures (Grouping.read_ensures hp) _ _ groupings hgroupings, Node.readBody_ensures hp _ nodes hnodes,
    list_ensures (Augment.read_ensures hp) _ _ augments haugments⟩

end

namespace Document

variable {q : Document → Prop}

structure Ensured (q : Document → Prop) : Prop where
  main : ∀ value, (Module.read value).Ensures fun m => q (.main m)
  part : ∀ value, (Submodule.read value).Ensures fun s => q (.part s)
  withSource : ∀ {document : Document}, q document → ∀ source, q (document.withSource source)

theorem ensured_of_ofReading {label word : String} {entries : Entries} {reading : Checked Document}
    (hreading : reading.Ensures q) {document : Document} (h : ofReading label word entries reading = .ok document) :
    q document := by
  unfold ofReading at h
  cases reading with
  | good result =>
    cases h
    exact hreading document rfl
  | bad issues =>
    dsimp only at h
    split at h
    · cases h
    · cases h

theorem Ensured.ofValue (hq : Ensured q) {label : String} {value : Value} {document : Document}
    (h : Document.ofValue label value = .ok document) : q document := by
  unfold Document.ofValue at h
  split at h
  · split at h
    · exact ensured_of_ofReading (Ensures.map (hq.main _)) h
    · split at h
      · exact ensured_of_ofReading (Ensures.map (hq.part _)) h
      · cases h
  · cases h

theorem Ensured.ofValues (hq : Ensured q) {source : String} {label : Nat → String} {index : Nat} {values : List Value}
    {documents : List Document} (h : Document.ofValues source label index values = .ok documents) :
    ∀ d ∈ documents, q d := by
  induction values generalizing index documents with
  | nil =>
    cases h
    exact List.forall_mem_nil _
  | cons value rest ih =>
    unfold Document.ofValues at h
    cases hfirst : Document.ofValue (label index) value with
    | error refusal =>
      rw [hfirst] at h
      cases h
    | ok document =>
      cases hmore : Document.ofValues source label (index + 1) rest with
      | error refusal =>
        rw [hfirst, hmore] at h
        cases h
      | ok more =>
        rw [hfirst, hmore] at h
        cases h
        rw [List.forall_mem_cons]
        exact ⟨hq.withSource (hq.ofValue hfirst) source, ih hmore⟩

theorem Ensured.parse (hq : Ensured q) {text source : String} {documents : List Document}
    (h : Document.parse text source = .ok documents) : ∀ d ∈ documents, q d := by
  unfold Document.parse at h
  split at h
  · cases h
  · dsimp only at h
    split at h
    · cases h
    · exact hq.ofValues h

end Document

end Yang

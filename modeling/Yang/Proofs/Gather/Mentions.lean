import Yang.Proofs.Gather.About
import Yang.Proofs.Gather.Queue

/-!
This module contains what the documents of a module include. Every name is looked up once, for the first document that
mentions it, and the documents are the module and the submodules of it that are found, in the order of the mentions.
-/

namespace Yang

namespace Gathering

/--
A name that is mentioned for the first time, the document that includes it, and what is found by it.
-/
structure Mention where
  document : Document
  name : String
  found : Option Submodule

namespace Mention

def member? (owner : String) (m : Mention) : Option Submodule :=
  match m.found with
  | none => none
  | some s => if s.owner = owner then some s else none

theorem member?_eq_some_iff {owner : String} {m : Mention} {s : Submodule} :
    m.member? owner = some s ↔ m.found = some s ∧ s.owner = owner := by
  unfold member?
  cases m.found with
  | none => exact ⟨nofun, fun h => nomatch h.1⟩
  | some found =>
    dsimp only
    rw [Option.some_inj]
    split
    · next howner =>
      constructor
      · intro h
        cases h
        exact ⟨rfl, howner⟩
      · rintro ⟨rfl, _⟩
        rfl
    · next howner =>
      refine ⟨nofun, ?_⟩
      rintro ⟨rfl, h⟩
      exact absurd h howner

def finding? (owner : String) (m : Mention) : Option Finding :=
  match m.found with
  | none => some (.includeNotFound m.name)
  | some s => if s.owner = owner then none else some (.includeOfOther m.name s.owner)

def problem? (owner : String) (m : Mention) : Option Diagnostic :=
  (m.finding? owner).map (Context.first owner m.document).problem

end Mention

def reportAny (g : Gathering) (problem : Option Diagnostic) : Gathering :=
  problem.elim g g.report

theorem store_reportAny (g : Gathering) (problem : Option Diagnostic) : (g.reportAny problem).store = g.store := by
  cases problem <;> rfl

theorem breakdown_reportAny (g : Gathering) (problem : Option Diagnostic) :
    (g.reportAny problem).breakdown = g.breakdown := by
  cases problem <;> rfl

inductive Looks (files : Files) (owner : String) : Gathering → List Mention → Gathering → Prop
  | nil (g : Gathering) : Looks files owner g [] g
  | cons {g g' : Gathering} {m : Mention} {rest : List Mention}
    (found : (g.look Store.findSubmodule files m.name).1 = m.found)
    (more : Looks files owner ((g.look Store.findSubmodule files m.name).2.reportAny (m.problem? owner)) rest g') :
    Looks files owner g (m :: rest) g'

theorem Looks.extends {files : Files} {owner : String} {g g' : Gathering} {mentions : List Mention}
    (h : Looks files owner g mentions g') : g.store.Extends g'.store := by
  induction h with
  | nil => exact Store.Extends.refl _
  | @cons g _ m _ _ _ ih =>
    rw [store_reportAny] at ih
    exact (extends_look Store.submodule? files m.name g).trans ih

namespace Looks

variable {files : Files} {owner : String} {g g' g'' : Gathering} {mentions more : List Mention}

theorem append (h : Looks files owner g mentions g') (h' : Looks files owner g' more g'') :
    Looks files owner g (mentions ++ more) g'' := by
  induction h with
  | nil => exact h'
  | cons found _ ih => exact .cons found (ih h')

theorem about (h : Looks files owner g mentions g') (p : Finding → Bool) :
    g'.about p = g.about p
      ++ mentions.filterMap fun m => ((m.finding? owner).filter p).map (Context.first owner m.document).problem := by
  induction h with
  | nil => exact (List.append_nil _).symm
  | @cons g g' m rest found _ ih =>
    have hlook : (g.look Store.findSubmodule files m.name).2.about p = g.about p := about_look _ _ _ _
    rw [ih, List.filterMap_cons, ← hlook]
    unfold reportAny Mention.problem?
    cases m.finding? owner with
    | none => rfl
    | some finding =>
      rw [Option.map_some, Option.elim_some, about_report, List.append_assoc]
      cases (some finding).filter p <;> rfl

theorem running (h : Looks files owner g mentions g') (hrunning : g'.breakdown = none) : g.breakdown = none := by
  induction h with
  | nil => exact hrunning
  | cons _ _ ih =>
    have hlooked := ih hrunning
    rw [breakdown_reportAny] at hlooked
    exact running_of_look hlooked

theorem submodule?_of_found (h : Looks files owner g mentions g') {m : Mention} (hm : m ∈ mentions) {s : Submodule}
    (hs : m.found = some s) : g'.store.submodule? m.name = some s := by
  induction h with
  | nil => cases hm
  | @cons g g' first rest found more ih =>
    rcases List.mem_cons.1 hm with rfl | hm
    · rw [hs] at found
      apply more.extends.submodule?
      rw [store_reportAny]
      exact submodule?_of_look found
    · exact ih hm

end Looks

variable {files : Files} {owner : String}

def Brings (owner : String) (mentions : List Mention) (d d' : Document) : Prop :=
  ∃ m ∈ mentions, m.name ∈ d.body.includes ∧ (m.member? owner).map Document.part = some d'

theorem Brings.append {owner : String} {later : List Mention} {d d' : Document} (h : Brings owner later d d')
    (mentions : List Mention) : Brings owner (mentions ++ later) d d' :=
  have ⟨m, hm, hbrings⟩ := h
  ⟨m, List.mem_append_right _ hm, hbrings⟩

structure Includes (files : Files) (owner : String) (mentioned : List String) (g : Gathering) (queue : List Document)
    (mentions : List Mention) (documents : List Document) (after : Gathering) : Prop where
  looks : Looks files owner g mentions after
  eq : documents = queue ++ (mentions.filterMap (Mention.member? owner)).map Document.part
  names : mentions.map Mention.name = fresh mentioned (documents.flatMap fun d => d.body.includes)
  first : ∀ m ∈ mentions, documents.find? (fun d => d.body.includes.contains m.name) = some m.document
  reached : ∀ d ∈ documents, ∃ q ∈ queue, Relation.ReflTransGen (Brings owner mentions) q d

theorem names_members (owner : String) {mentions : List Mention}
    (h : ∀ m ∈ mentions, ∀ s, m.found = some s → s.name = m.name) :
    ((mentions.filterMap (Mention.member? owner)).map Submodule.name).Sublist (mentions.map Mention.name) := by
  induction mentions with
  | nil => exact .slnil
  | cons m rest ih =>
    rw [List.forall_mem_cons] at h
    rw [List.filterMap_cons, List.map_cons]
    have hrest := ih h.2
    split
    · exact hrest.cons _
    · next s hmember =>
      obtain ⟨hfound, _⟩ := Mention.member?_eq_some_iff.1 hmember
      rw [List.map_cons, h.1 s hfound]
      exact hrest.cons_cons _

variable {mentioned : List String} {g after : Gathering} {queue documents : List Document} {mentions : List Mention}

theorem Includes.nodup_mentions (h : Includes files owner mentioned g queue mentions documents after) :
    (mentions.map Mention.name).Nodup := by
  rw [h.names, fresh_eq_eraseDups]
  apply Text.nodup_eraseDups

theorem Includes.nodup_members (h : Includes files owner mentioned g queue mentions documents after) :
    ((mentions.filterMap (Mention.member? owner)).map Submodule.name).Nodup := by
  refine (names_members owner ?_).nodup h.nodup_mentions
  intro m hm s hs
  exact (Store.submodule?_spec (h.looks.submodule?_of_found hm hs)).2

theorem Includes.mem_iff (h : Includes files owner mentioned g queue mentions documents after) {d : Document} :
    d ∈ documents ↔ ∃ q ∈ queue, Relation.ReflTransGen (Brings owner mentions) q d := by
  refine ⟨h.reached d, ?_⟩
  rintro ⟨q, hq, hreached⟩
  rw [h.eq, List.mem_append]
  cases hreached with
  | refl => exact .inl hq
  | tail _ hbrings =>
    obtain ⟨m, hm, _, hmember⟩ := hbrings
    obtain ⟨s, hs, rfl⟩ := Option.map_eq_some_iff.1 hmember
    exact .inr (List.mem_map_of_mem (List.mem_filterMap.2 ⟨m, hm, hs⟩))

theorem Includes.length_le (h : Includes files owner mentioned g queue mentions documents after) :
    documents.length ≤ queue.length + after.store.submodules.length := by
  have hsubset : (mentions.filterMap (Mention.member? owner)).map Submodule.name
      ⊆ after.store.submodules.map Submodule.name := by
    apply List.map_subset
    intro s hs
    obtain ⟨m, hm, hmember⟩ := List.mem_filterMap.1 hs
    obtain ⟨hfound, _⟩ := Mention.member?_eq_some_iff.1 hmember
    exact (Store.submodule?_spec (h.looks.submodule?_of_found hm hfound)).1
  have hlength := (List.subperm_of_subset h.nodup_members hsubset).length_le
  rw [List.length_map, List.length_map] at hlength
  rw [h.eq, List.length_append, List.length_map]
  exact Nat.add_le_add_left hlength _

end Gathering

end Yang

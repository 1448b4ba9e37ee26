import Yang.Entry
import Yang.Proofs.Keyed

/-!
This module contains what holds within trees, and what becomes of a tree when an entry in it gets other children: the
heads of all entries around it stay, so what holds of entries and the heads of their children stays too.
-/

namespace Yang.Entry

inductive Within : Entry → Entry → Prop
  | self (e : Entry) : Within e e
  | child {d c e : Entry} (hc : c ∈ e.children) (h : Within d c) : Within d e

def All (p : EntryHead → List EntryHead → Prop) (e : Entry) : Prop :=
  ∀ d, Within d e → p d.head (d.children.map head)

theorem Within.eq_or_child {d e : Entry} (h : Within d e) :
    d = e ∨ ∃ parent, Within parent e ∧ d ∈ parent.children := by
  induction h with
  | self => exact .inl rfl
  | @child c e hc _ ih =>
    rcases ih with rfl | ⟨parent, hparent, hd⟩
    · exact .inr ⟨e, .self e, hc⟩
    · exact .inr ⟨parent, .child hc hparent, hd⟩

variable {p : EntryHead → List EntryHead → Prop}

theorem all_mk_iff {h : EntryHead} {children : List Entry} :
    All p (mk h children) ↔ p h (children.map head) ∧ ∀ c ∈ children, All p c := by
  constructor
  · intro hall
    refine ⟨hall _ (.self _), fun c hc d hd => hall d (.child hc hd)⟩
  · rintro ⟨hself, hchildren⟩ d hd
    cases hd with
    | self => exact hself
    | child hc hd => exact hchildren _ hc d hd

theorem All.self {e : Entry} (h : All p e) : p e.head (e.children.map head) :=
  h e (.self e)

theorem All.child {e c : Entry} (h : All p e) (hc : c ∈ e.children) : All p c :=
  fun d hd => h d (.child hc hd)

theorem named?_spec {name : String} {entries : List Entry} {e : Entry} (h : named? name entries = some e) :
    e ∈ entries ∧ e.name = name := by
  constructor
  · exact List.mem_of_find?_eq_some h
  · simpa using List.find?_some h

theorem named?_eq_none_iff {n : String} {entries : List Entry} :
    named? n entries = none ↔ n ∉ entries.map name := by
  unfold named?
  rw [List.find?_eq_none]
  simp

theorem named?_of_mem {entries : List Entry} (h : (entries.map name).Nodup) {e : Entry} (he : e ∈ entries) :
    named? e.name entries = some e :=
  find?_eq_some_of_mem h he

theorem nodup_names_concat {entries : List Entry} (h : (entries.map name).Nodup) {e : Entry}
    (he : e.name ∉ entries.map name) : ((entries ++ [e]).map name).Nodup := by
  rw [List.map_append, List.map_singleton, List.nodup_append]
  refine ⟨h, List.nodup_singleton _, ?_⟩
  rintro _ hn n hn' rfl
  rw [List.mem_singleton.1 hn'] at hn
  exact he hn

theorem All.descend {e d : Entry} {names : List String} (h : All p e) (hd : e.descend? names = some d) :
    All p d := by
  induction names generalizing e with
  | nil =>
    cases hd
    exact h
  | cons name rest ih =>
    obtain ⟨c, hc, hrest⟩ := Option.bind_eq_some_iff.1 hd
    exact ih (h.child (named?_spec hc).1) hrest

theorem regrowIn_eq_of_named? (grown : List Entry) {name : String} (names : List String) {entries : List Entry}
    {e : Entry} (h : named? name entries = some e) :
    ∃ before after, entries = before ++ e :: after ∧ (∀ b ∈ before, b.name ≠ name)
      ∧ regrowIn grown name names entries = before ++ regrow grown names e :: after := by
  induction entries with
  | nil => cases h
  | cons first rest ih =>
    unfold named? at h
    rw [List.find?_cons] at h
    rw [regrowIn]
    split at h
    · next hname =>
      cases h
      refine ⟨[], rest, rfl, by simp, ?_⟩
      rw [if_pos (eq_of_beq hname), List.nil_append]
    · next hname =>
      obtain ⟨before, after, heq, hbefore, hgrown⟩ := ih h
      have hne : first.name ≠ name := by simpa using hname
      refine ⟨first :: before, after, by rw [heq, List.cons_append], ?_, ?_⟩
      · intro b hb
        rcases List.mem_cons.1 hb with rfl | hb
        · exact hne
        · exact hbefore b hb
      · rw [if_neg hne, hgrown, List.cons_append]

@[simp]
theorem head_regrow (grown : List Entry) (names : List String) (e : Entry) :
    (regrow grown names e).head = e.head := by
  cases e
  cases names <;> rw [regrow] <;> rfl

theorem named?_regrowIn (grown : List Entry) {name : String} (names : List String) {entries : List Entry} {e : Entry}
    (h : named? name entries = some e) :
    named? name (regrowIn grown name names entries) = some (regrow grown names e) := by
  obtain ⟨before, after, _, hbefore, hgrown⟩ := regrowIn_eq_of_named? grown names h
  have hname : (regrow grown names e).name = name := by
    rw [← (named?_spec h).2]
    exact congrArg EntryHead.name (head_regrow grown names e)
  unfold named?
  rw [hgrown, List.find?_append, List.find?_eq_none.2 (by simpa using hbefore), Option.none_or,
    List.find?_cons_of_pos (by simpa using hname)]

theorem regrowIn_eq_self {grown : List Entry} {name : String} {names : List String} {entries : List Entry}
    (h : named? name entries = none) : regrowIn grown name names entries = entries := by
  induction entries with
  | nil => rw [regrowIn]
  | cons first rest ih =>
    unfold named? at h
    rw [List.find?_cons] at h
    rw [regrowIn]
    split at h
    · cases h
    · next hname => rw [if_neg (by simpa using hname), ih h]

theorem heads_regrowIn (grown : List Entry) (name : String) (names : List String) (entries : List Entry) :
    (regrowIn grown name names entries).map head = entries.map head := by
  cases h : named? name entries with
  | none => rw [regrowIn_eq_self h]
  | some e =>
    obtain ⟨before, after, heq, _, hgrown⟩ := regrowIn_eq_of_named? grown names h
    rw [hgrown, heq]
    simp

theorem All.regrow {grown : List Entry} {names : List String} {e d : Entry} (h : All p e)
    (hd : e.descend? names = some d) (hself : p d.head (grown.map head)) (hgrown : ∀ c ∈ grown, All p c) :
    All p (e.regrow grown names) := by
  induction names generalizing e with
  | nil =>
    obtain ⟨head, children⟩ := e
    cases hd
    rw [Entry.regrow, all_mk_iff]
    exact ⟨hself, hgrown⟩
  | cons name rest ih =>
    obtain ⟨head, children⟩ := e
    obtain ⟨c, hc, hrest⟩ := Option.bind_eq_some_iff.1 hd
    obtain ⟨before, after, heq, _, hregrown⟩ := regrowIn_eq_of_named? grown rest hc
    rw [Entry.regrow, all_mk_iff, heads_regrowIn]
    rw [all_mk_iff] at h
    refine ⟨h.1, fun b hb => ?_⟩
    change children = before ++ c :: after at heq
    change regrowIn grown name rest children = before ++ c.regrow grown rest :: after at hregrown
    rw [hregrown] at hb
    rw [heq] at h
    rcases List.mem_append.1 hb with hb | hb
    · exact h.2 b (List.mem_append_left _ hb)
    · rcases List.mem_cons.1 hb with rfl | hb
      · exact ih (h.2 c (by simp)) hrest
      · exact h.2 b (List.mem_append_right _ (List.mem_cons_of_mem _ hb))

theorem forall_all_regrowIn {grown : List Entry} {name : String} {names : List String} {entries : List Entry}
    {e d : Entry} (h : ∀ tree ∈ entries, All p tree) (he : named? name entries = some e)
    (hd : e.descend? names = some d) (hself : p d.head (grown.map head)) (hgrown : ∀ c ∈ grown, All p c) :
    ∀ tree ∈ regrowIn grown name names entries, All p tree := by
  obtain ⟨before, after, heq, _, hregrown⟩ := regrowIn_eq_of_named? grown names he
  rw [hregrown]
  rw [heq] at h
  intro tree htree
  rcases List.mem_append.1 htree with htree | htree
  · exact h tree (List.mem_append_left _ htree)
  · rcases List.mem_cons.1 htree with rfl | htree
    · exact (h e (by simp)).regrow hd hself hgrown
    · exact h tree (List.mem_append_right _ (List.mem_cons_of_mem _ htree))

def Distinct (_ : EntryHead) (children : List EntryHead) : Prop :=
  (children.map EntryHead.name).Nodup

theorem names_eq (entries : List Entry) :
    entries.map name = (entries.map head).map EntryHead.name := by
  rw [List.map_map]
  rfl

end Yang.Entry

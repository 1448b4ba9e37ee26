import Yang.Entry.Table
import Yang.Proofs.Entry.Walk

/-!
This module contains tables of linked entries that hold a tree. Whoever goes down the links to children and up the links
to parents finds what stands in the tree: a walk comes to the same entries, and above each of them are the same ones.
-/

namespace Yang.EntryTable

mutual

/--
Whether a table has a tree at a number, and every entry of it is linked to its children and to what is above it.
-/
def Holds (table : EntryTable) (parent : Option Nat) (n : Nat) (e : Entry) : Prop :=
  match e with
  | .mk head children => ∃ links, table.entries[n]? = some ⟨head, links, parent⟩ ∧ HoldsAll table n links children

@[inherit_doc Holds]
def HoldsAll (table : EntryTable) (parent : Nat) (links : List (String × Nat)) (entries : List Entry) : Prop :=
  match entries with
  | [] => links = []
  | e :: rest =>
    ∃ n more, links = (e.name, n) :: more ∧ Holds table (some parent) n e ∧ HoldsAll table parent more rest

end

theorem forall₂_mem_right {α β : Type} {r : α → β → Prop} {l : List α} {l' : List β} (h : List.Forall₂ r l l') :
    List.Forall₂ (fun a b => b ∈ l' ∧ r a b) l l' :=
  ((List.forall₂_and_left _ _).2 ⟨fun _ hb => hb, h.flip⟩ : List.Forall₂ (fun b a => b ∈ l' ∧ r a b) l' l).flip

inductive Chain (table : EntryTable) : Nat → List Nat → Prop
  | root {n : Nat} {e : LinkedEntry} (hentry : table.entries[n]? = some e) (hparent : e.parent = none) :
    Chain table n []
  | child {n p : Nat} {e : LinkedEntry} {numbers : List Nat} (hentry : table.entries[n]? = some e)
    (hparent : e.parent = some p) (h : Chain table p numbers) : Chain table n (p :: numbers)

variable {table : EntryTable} {n : Nat} {numbers : List Nat} {parent : Option Nat} {e : Entry}

theorem Holds.exists_links (h : table.Holds parent n e) :
    ∃ links, table.entries[n]? = some ⟨e.head, links, parent⟩ ∧ table.HoldsAll n links e.children := by
  obtain ⟨head, children⟩ := e
  rw [Holds] at h
  exact h

def Leads (table : EntryTable) (parent : Nat) (link : String × Nat) (e : Entry) : Prop :=
  link.1 = e.name ∧ table.Holds (some parent) link.2 e

theorem holdsAll_iff {p : Nat} {links : List (String × Nat)} {entries : List Entry} :
    table.HoldsAll p links entries ↔ List.Forall₂ (table.Leads p) links entries := by
  induction entries generalizing links with
  | nil => rw [HoldsAll, List.forall₂_nil_right_iff]
  | cons e rest ih =>
    rw [HoldsAll, List.forall₂_cons_right_iff]
    constructor
    · rintro ⟨n, more, rfl, hn, hmore⟩
      exact ⟨_, more, ⟨rfl, hn⟩, ih.1 hmore, rfl⟩
    · rintro ⟨⟨name, n⟩, more, ⟨hname, hn⟩, hmore, rfl⟩
      change name = e.name at hname
      subst hname
      exact ⟨n, more, rfl, hn, ih.2 hmore⟩

theorem Chain.unique {others : List Nat} (h : table.Chain n numbers) (h' : table.Chain n others) :
    numbers = others := by
  induction h generalizing others with
  | root hentry hparent =>
    cases h' with
    | root => rfl
    | child hentry' hparent' =>
      rw [hentry] at hentry'
      cases hentry'
      rw [hparent] at hparent'
      cases hparent'
  | child hentry hparent _ ih =>
    cases h' with
    | root hentry' hparent' =>
      rw [hentry] at hentry'
      cases hentry'
      rw [hparent] at hparent'
      cases hparent'
    | child hentry' hparent' h' =>
      rw [hentry] at hentry'
      cases hentry'
      rw [hparent] at hparent'
      cases hparent'
      rw [ih h']

theorem Chain.of_append {before after : List Nat} {m : Nat} (h : table.Chain n (before ++ m :: after)) :
    table.Chain m after := by
  induction before generalizing n with
  | nil =>
    cases h with
    | child _ _ h => exact h
  | cons p rest ih =>
    cases h with
    | child _ _ h => exact ih h

theorem Chain.nodup (h : table.Chain n numbers) : (n :: numbers).Nodup := by
  induction h with
  | root => exact List.nodup_singleton _
  | @child n p e numbers hentry hparent h ih =>
    rw [List.nodup_cons]
    refine ⟨fun hmem => ?_, ih⟩
    obtain ⟨before, after, heq⟩ := List.append_of_mem hmem
    have habove : table.Chain n (p :: numbers) := .child hentry hparent h
    have hself : table.Chain n after := (heq ▸ habove).of_append
    have hlength := congrArg List.length (hself.unique habove)
    rw [heq, List.length_append, List.length_cons] at hlength
    omega

theorem Chain.lt (h : table.Chain n numbers) : ∀ m ∈ n :: numbers, m < table.entries.length := by
  induction h with
  | root hentry => exact List.forall_mem_singleton.2 (List.getElem?_eq_some_iff.1 hentry).1
  | child hentry _ _ ih => exact List.forall_mem_cons.2 ⟨(List.getElem?_eq_some_iff.1 hentry).1, ih⟩

theorem Chain.length_lt (h : table.Chain n numbers) : numbers.length < table.entries.length := by
  have hsubset : n :: numbers ⊆ List.range table.entries.length := fun m hm => List.mem_range.2 (h.lt m hm)
  have hlength := (List.subperm_of_subset h.nodup hsubset).length_le
  rw [List.length_cons, List.length_range] at hlength
  exact hlength

def headOf (table : EntryTable) (n : Nat) : EntryHead :=
  ((table.entries[n]?).map LinkedEntry.head).getD default

theorem Chain.above_eq (h : table.Chain n numbers) {limit : Nat} (hlimit : numbers.length ≤ limit) :
    table.above n limit = numbers.map table.headOf := by
  induction h generalizing limit with
  | root hentry hparent =>
    cases limit with
    | zero => rfl
    | succ limit =>
      rw [above, hentry, Option.bind_some, hparent]
      rfl
  | @child n p e numbers hentry hparent h ih =>
    cases limit with
    | zero => cases hlimit
    | succ limit =>
      obtain ⟨parent, hfound⟩ : ∃ parent, table.entries[p]? = some parent := by
        cases h with
        | root hentry | child hentry => exact ⟨_, hentry⟩
      rw [above, hentry, Option.bind_some, hparent]
      dsimp only
      rw [ih (Nat.le_of_succ_le_succ hlimit), List.map_cons]
      unfold headOf
      rw [hfound]
      rfl

theorem Holds.visit?_eq (h : table.Holds parent n e) (hchain : table.Chain n numbers) :
    table.visit? n = some ⟨e.head, numbers.map table.headOf⟩ := by
  obtain ⟨links, hentry, _⟩ := h.exists_links
  unfold visit?
  rw [hentry, Option.map_some, hchain.above_eq (Nat.le_of_lt hchain.length_lt)]

theorem Holds.chain_child {link : String × Nat} {c : Entry} (h : table.Leads n link c)
    (hchain : table.Chain n numbers) : table.Chain link.2 (n :: numbers) := by
  obtain ⟨links, hentry, _⟩ := h.2.exists_links
  exact .child hentry rfl hchain

theorem map_eq_of_forall₂ {α β γ : Type} {f : α → γ} {g : β → γ} {l : List α} {l' : List β}
    (h : List.Forall₂ (fun a b => f a = g b) l l') : l.map f = l'.map g := by
  rw [← List.forall₂_eq_eq_eq, List.forall₂_map_left_iff, List.forall₂_map_right_iff]
  exact h

theorem Holds.toEntry_eq {e : Entry} {parent : Option Nat} {n : Nat} {numbers : List Nat} (h : table.Holds parent n e)
    (hchain : table.Chain n numbers) {levels : Nat} (hlevels : table.entries.length ≤ numbers.length + levels) :
    table.toEntry n levels = e := by
  obtain ⟨links, hentry, hlinks⟩ := h.exists_links
  have hlt := hchain.length_lt
  cases levels with
  | zero => exact absurd hlevels (Nat.not_le_of_lt hlt)
  | succ levels =>
    have hbelow : List.Forall₂ (fun link c => table.toEntry link.2 levels = id c) links e.children := by
      refine (forall₂_mem_right (holdsAll_iff.1 hlinks)).imp fun link c ⟨hc, hleads⟩ => ?_
      apply hleads.2.toEntry_eq (Holds.chain_child hleads hchain)
      rw [List.length_cons]
      omega
    rw [toEntry, hentry]
    dsimp only
    rw [map_eq_of_forall₂ hbelow, List.map_id]
    cases e
    rfl
termination_by sizeOf e
decreasing_by exact Entry.sizeOf_lt_of_mem_children hc

theorem Holds.visits_eq {e : Entry} {parent : Option Nat} {n : Nat} {numbers : List Nat} (h : table.Holds parent n e)
    (hchain : table.Chain n numbers) {levels : Nat} (hlevels : table.entries.length ≤ numbers.length + levels) :
    table.visits n levels = Entry.visits (numbers.map table.headOf) e.inOrder := by
  obtain ⟨links, hentry, hlinks⟩ := h.exists_links
  have hlt := hchain.length_lt
  cases levels with
  | zero => exact absurd hlevels (Nat.not_le_of_lt hlt)
  | succ levels =>
    have hheads : (n :: numbers).map table.headOf = e.head :: numbers.map table.headOf := by
      unfold headOf
      rw [List.map_cons, hentry]
      rfl
    have hordered : List.Forall₂ (fun link c => c ∈ e.children ∧ table.Leads n link c)
        (links.mergeSort fun a b => decide (a.1 ≤ b.1)) (e.children.mergeSort fun a b => decide (a.name ≤ b.name)) := by
      apply forall₂_mergeSort (forall₂_mem_right (holdsAll_iff.1 hlinks))
      intro a b a' b' ha hb
      rw [ha.2.1, hb.2.1]
    have hbelow : ∀ link c, c ∈ e.children ∧ table.Leads n link c →
        table.visits link.2 levels = Entry.visits (e.head :: numbers.map table.headOf) c.inOrder := by
      rintro link c ⟨hc, hleads⟩
      rw [hleads.2.visits_eq (Holds.chain_child hleads hchain), hheads]
      rw [List.length_cons]
      omega
    have hnames : ∀ a ∈ e.children, ∀ b ∈ e.children,
        decide (a.name ≤ b.name) = decide (a.inOrder.name ≤ b.inOrder.name) := by
      intro a _ b _
      rw [Entry.name_inOrder, Entry.name_inOrder]
    rw [visits, hentry, h.visit?_eq hchain, Entry.visits_eq, Entry.visitsAll_eq, Entry.inOrder_eq]
    dsimp only [Option.map_some, Option.getD_some, Option.toList_some]
    rw [List.flatMap_def, map_eq_of_forall₂ (hordered.imp hbelow), ← List.flatMap_def, Entry.inOrderAll_eq]
    change _ :: _ = _ :: List.flatMap _ ((e.children.map Entry.inOrder).mergeSort _)
    rw [← List.map_mergeSort hnames, List.flatMap_map]
    rfl
termination_by sizeOf e
decreasing_by exact Entry.sizeOf_lt_of_mem_children hc

theorem Holds.chain_root (h : table.Holds none n e) : table.Chain n [] := by
  obtain ⟨links, hentry, _⟩ := h.exists_links
  exact .root hentry rfl

theorem Holds.tree_eq (h : table.Holds none n e) : table.tree n = e :=
  h.toEntry_eq h.chain_root (Nat.le_add_left _ _)

theorem Holds.walk_eq (h : table.Holds none n e) : table.walk n = e.walk :=
  h.visits_eq h.chain_root (Nat.le_add_left _ _)

mutual

def size (e : Entry) : Nat :=
  match e with
  | .mk _ children => sizeOfAll children + 1

def sizeOfAll (entries : List Entry) : Nat :=
  match entries with
  | [] => 0
  | e :: rest => size e + sizeOfAll rest

end

def linksTo (n : Nat) (entries : List Entry) : List (String × Nat) :=
  match entries with
  | [] => []
  | e :: rest => (e.name, n) :: linksTo (n + size e) rest

mutual

def laid (parent : Option Nat) (n : Nat) (e : Entry) : List LinkedEntry :=
  match e with
  | .mk head children => ⟨head, linksTo (n + 1) children, parent⟩ :: laidAll n (n + 1) children

def laidAll (parent : Nat) (n : Nat) (entries : List Entry) : List LinkedEntry :=
  match entries with
  | [] => []
  | e :: rest => laid (some parent) n e ++ laidAll parent (n + size e) rest

end

def ofEntry (e : Entry) : EntryTable :=
  ⟨laid none 0 e, []⟩

mutual

theorem length_laid (parent : Option Nat) (n : Nat) (e : Entry) : (laid parent n e).length = size e := by
  obtain ⟨head, children⟩ := e
  rw [laid, size, List.length_cons, length_laidAll n (n + 1) children]

theorem length_laidAll (parent : Nat) (n : Nat) (entries : List Entry) :
    (laidAll parent n entries).length = sizeOfAll entries := by
  match entries with
  | [] => rfl
  | e :: rest =>
    rw [laidAll, sizeOfAll, List.length_append, length_laid (some parent) n e, length_laidAll parent _ rest]

end

mutual

theorem holds_of_laid {before after : List LinkedEntry} {parent : Option Nat} {n : Nat} {e : Entry}
    (hn : before.length = n) (h : table.entries = before ++ (laid parent n e ++ after)) : table.Holds parent n e := by
  obtain ⟨head, children⟩ := e
  rw [laid, List.cons_append] at h
  have hbelow : table.entries = (before ++ [⟨head, linksTo (n + 1) children, parent⟩])
      ++ (laidAll n (n + 1) children ++ after) := h.trans (List.append_cons _ _ _)
  rw [Holds]
  refine ⟨_, ?_, holdsAll_of_laidAll ?_ hbelow⟩
  · rw [h, List.getElem?_append_right hn.le, hn, Nat.sub_self]
    rfl
  · rw [List.length_append, hn, List.length_singleton]

theorem holdsAll_of_laidAll {before after : List LinkedEntry} {parent : Nat} {n : Nat} {entries : List Entry}
    (hn : before.length = n) (h : table.entries = before ++ (laidAll parent n entries ++ after)) :
    table.HoldsAll parent (linksTo n entries) entries := by
  match entries with
  | [] => rfl
  | e :: rest =>
    rw [laidAll, List.append_assoc] at h
    rw [linksTo, HoldsAll]
    refine ⟨_, _, rfl, holds_of_laid hn h, holdsAll_of_laidAll ?_ (h.trans (List.append_assoc _ _ _).symm)⟩
    rw [List.length_append, length_laid, hn]

end

theorem holds_ofEntry (e : Entry) : (ofEntry e).Holds none 0 e :=
  @holds_of_laid (ofEntry e) [] [] none 0 e rfl (List.append_nil _).symm

end Yang.EntryTable

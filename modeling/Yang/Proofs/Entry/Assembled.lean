import Yang.Proofs.Entry.Linked

/-!
This module contains how tables of linked entries come to hold trees. A new entry is a tree of its own, and an entry
that is added to another one hangs below it with everything that it has, while all other entries stay as they are.
-/

namespace Yang.EntryTable

variable {table other : EntryTable} {n m p c k : Nat} {numbers : List Nat} {parent : Option Nat} {e d child : Entry}
  {linked : LinkedEntry}

def Below (table : EntryTable) (n m : Nat) : Prop :=
  ∃ numbers, table.Chain m numbers ∧ n ∈ m :: numbers

theorem Chain.below_self (h : table.Chain n numbers) : table.Below n n :=
  ⟨numbers, h, List.mem_cons_self⟩

theorem Below.exists_append (h : table.Below n m) (hchain : table.Chain n numbers) :
    ∃ before others, table.Chain m others ∧ m :: others = before ++ n :: numbers := by
  obtain ⟨others, hm, hmem⟩ := h
  rcases List.mem_cons.1 hmem with rfl | hmem
  · refine ⟨[], others, hm, ?_⟩
    rw [hm.unique hchain, List.nil_append]
  · obtain ⟨before, after, rfl⟩ := List.append_of_mem hmem
    refine ⟨m :: before, _, hm, ?_⟩
    rw [hm.of_append.unique hchain, List.cons_append]

theorem Below.of_child (h : table.Below k m) (hchain : table.Chain k (n :: numbers)) : table.Below n m := by
  obtain ⟨before, others, hm, heq⟩ := h.exists_append hchain
  refine ⟨others, hm, ?_⟩
  rw [heq]
  simp

theorem Below.eq_of_root (h : table.Below n c) (hroot : table.Chain c []) : n = c := by
  obtain ⟨others, hc, hmem⟩ := h
  rw [hc.unique hroot] at hmem
  exact List.mem_singleton.1 hmem

theorem Below.child_unique {l : Nat} (hk : table.Below k m) (hl : table.Below l m)
    (hchain : table.Chain k (n :: numbers)) (hchain' : table.Chain l (n :: numbers)) : k = l := by
  obtain ⟨before, others, hm, heq⟩ := hk.exists_append hchain
  obtain ⟨before', others', hm', heq'⟩ := hl.exists_append hchain'
  rw [hm.unique hm', heq'] at heq
  exact (List.cons.inj (List.append_inj' heq rfl).2).1.symm

theorem Holds.congr {e : Entry} {parent : Option Nat} {n : Nat} {numbers : List Nat} (h : table.Holds parent n e)
    (hchain : table.Chain n numbers) (hsame : ∀ m, table.Below n m → other.entries[m]? = table.entries[m]?) :
    other.Holds parent n e := by
  obtain ⟨links, hentry, hlinks⟩ := h.exists_links
  have hbelow : List.Forall₂ (other.Leads n) links e.children := by
    refine (forall₂_mem_right (holdsAll_iff.1 hlinks)).imp fun link c hmem => ?_
    obtain ⟨hc, hleads⟩ := hmem
    refine ⟨hleads.1, ?_⟩
    have hchild := Holds.chain_child hleads hchain
    exact hleads.2.congr hchild fun m hm => hsame m (hm.of_child hchild)
  cases e
  rw [Holds]
  exact ⟨links, (hsame n hchain.below_self).trans hentry, holdsAll_iff.2 hbelow⟩
termination_by sizeOf e
decreasing_by exact Entry.sizeOf_lt_of_mem_children hc

theorem Below.lt (h : table.Below n m) : m < table.entries.length := by
  obtain ⟨numbers, hm, _⟩ := h
  exact hm.lt m List.mem_cons_self

theorem Holds.create (h : table.Holds none n e) (label : String) (head : EntryHead) :
    (table.create label head).Holds none n e :=
  h.congr h.chain_root fun _ hm => List.getElem?_append_left hm.lt

theorem holds_create (table : EntryTable) (label : String) (head : EntryHead) :
    (table.create label head).Holds none table.entries.length (.mk head []) := by
  rw [Holds]
  exact ⟨[], by simp [EntryTable.create], rfl⟩

section

variable (hc : table.entries[c]? = some linked) (hne : p ≠ c)

include hc

theorem entries_add : (table.add p c).entries
    = (table.entries.modify c fun e => { e with parent := some p }).modify p
      fun e => { e with children := put linked.head.name c e.children } := by
  unfold EntryTable.add
  rw [hc]
  rfl

theorem getElem?_add_of_ne (hp : m ≠ p) (hm : m ≠ c) : (table.add p c).entries[m]? = table.entries[m]? := by
  rw [entries_add hc, List.getElem?_modify_ne _ _ hp.symm, List.getElem?_modify_ne _ _ hm.symm]

include hne

theorem getElem?_add_child : (table.add p c).entries[c]? = some { linked with parent := some p } := by
  rw [entries_add hc, List.getElem?_modify_ne _ _ hne, List.getElem?_modify_eq, hc]
  rfl

theorem getElem?_add_parent {above : LinkedEntry} (hp : table.entries[p]? = some above) :
    (table.add p c).entries[p]? = some { above with children := put linked.head.name c above.children } := by
  rw [entries_add hc, List.getElem?_modify_eq, List.getElem?_modify_ne _ _ hne.symm, hp]
  rfl

end

theorem Holds.add_of_not_below (h : table.Holds parent n e) (hchain : table.Chain n numbers)
    (hc : table.entries[c]? = some linked) (hp : ¬ table.Below n p) (hn : ¬ table.Below n c) :
    (table.add p c).Holds parent n e :=
  h.congr hchain fun _ hm => getElem?_add_of_ne hc (fun heq => hp (heq ▸ hm)) fun heq => hn (heq ▸ hm)

theorem Holds.add_self (h : table.Holds none c e) (hp : ¬ table.Below c p) : (table.add p c).Holds (some p) c e := by
  obtain ⟨links, hentry, hlinks⟩ := h.exists_links
  have hroot := h.chain_root
  have hne : p ≠ c := fun heq => hp (heq ▸ hroot.below_self)
  have hbelow : List.Forall₂ ((table.add p c).Leads c) links e.children := by
    refine (holdsAll_iff.1 hlinks).imp fun link d hleads => ⟨hleads.1, ?_⟩
    have hchild := Holds.chain_child hleads hroot
    apply hleads.2.add_of_not_below hchild hentry
    · exact fun hm => hp (hm.of_child hchild)
    · intro hm
      have heq := hm.eq_of_root hroot
      rw [heq] at hchild
      cases hchild.unique hroot
  obtain ⟨head, children⟩ := e
  rw [Holds]
  exact ⟨links, getElem?_add_child hentry hne, holdsAll_iff.2 hbelow⟩

theorem forall₂_put_addTo {links : List (String × Nat)} {children : List Entry}
    (h : List.Forall₂ (other.Leads n) links children) (hc : other.Holds (some n) c child) :
    List.Forall₂ (other.Leads n) (put child.name c links) (Entry.addTo child children) := by
  induction h with
  | nil => exact .cons ⟨rfl, hc⟩ .nil
  | @cons link d links children hleads hrest ih =>
    obtain ⟨name, m⟩ := link
    unfold put Entry.addTo
    rw [show name = d.name from hleads.1]
    split
    · next heq => exact .cons ⟨heq, hc⟩ hrest
    · exact .cons ⟨rfl, hleads.2⟩ ih

theorem Holds.add_top (h : table.Holds parent n e) (hchain : table.Chain n numbers) (hc : table.Holds none c child)
    (hnew : c ∉ n :: numbers) :
    (table.add n c).Holds parent n (.mk e.head (Entry.addTo child e.children)) := by
  obtain ⟨links, hentry, hlinks⟩ := h.exists_links
  obtain ⟨links', hentry', _⟩ := hc.exists_links
  have hne : n ≠ c := fun heq => hnew (heq ▸ List.mem_cons_self)
  have hother : List.Forall₂ ((table.add n c).Leads n) links e.children := by
    refine (holdsAll_iff.1 hlinks).imp fun link d hleads => ⟨hleads.1, ?_⟩
    have hchild := Holds.chain_child hleads hchain
    apply hleads.2.add_of_not_below hchild hentry'
    · rintro ⟨others, hn, hmem⟩
      rw [hn.unique hchain] at hmem
      exact (List.nodup_cons.1 hchild.nodup).1 hmem
    · intro hm
      have heq := hm.eq_of_root hc.chain_root
      rw [heq] at hchild
      cases hchild.unique hc.chain_root
  have hadded : (table.add n c).Holds (some n) c child := by
    apply hc.add_self
    rintro ⟨others, hn, hmem⟩
    rw [hn.unique hchain] at hmem
    exact hnew hmem
  rw [Holds]
  exact ⟨_, getElem?_add_parent hentry' hne hentry, holdsAll_iff.2 (forall₂_put_addTo hother hadded)⟩

def follow? (table : EntryTable) (n : Nat) : List String → Option Nat
  | [] => some n
  | name :: rest =>
    ((table.entries[n]?).bind fun e => e.children.lookup name).bind fun m => table.follow? m rest

theorem exists_of_lookup {links : List (String × Nat)} {children : List Entry} {name : String}
    (h : List.Forall₂ (table.Leads n) links children) (hm : links.lookup name = some m) :
    ∃ d, Entry.named? name children = some d ∧ table.Leads n (name, m) d := by
  induction h with
  | nil => cases hm
  | @cons link d links children hleads hrest ih =>
    obtain ⟨found, k⟩ := link
    have hname : found = d.name := hleads.1
    unfold Entry.named?
    rw [List.find?_cons]
    rw [List.lookup_cons, hname] at hm
    rw [hname] at hleads
    by_cases heq : d.name = name
    · rw [beq_iff_eq.2 heq.symm] at hm
      rw [beq_iff_eq.2 heq]
      cases hm
      exact ⟨d, rfl, heq ▸ hleads⟩
    · rw [beq_false_of_ne (Ne.symm heq)] at hm
      rw [beq_false_of_ne heq]
      exact ih hm

theorem Holds.below_of_follow? {names : List String} (h : table.Holds parent n e) (hchain : table.Chain n numbers)
    (hp : table.follow? n names = some p) : table.Below n p := by
  induction names generalizing n e parent numbers with
  | nil =>
    cases hp
    exact hchain.below_self
  | cons name rest ih =>
    obtain ⟨links, hentry, hlinks⟩ := h.exists_links
    unfold follow? at hp
    rw [hentry] at hp
    obtain ⟨m, hm, hrest⟩ := Option.bind_eq_some_iff.1 hp
    obtain ⟨d, _, hleads⟩ := exists_of_lookup (holdsAll_iff.1 hlinks) hm
    have hchild := Holds.chain_child hleads hchain
    exact (ih hleads.2 hchild hrest).of_child hchild

theorem forall₂_regrowIn {links : List (String × Nat)} {children grown : List Entry} {name : String}
    {names : List String} (h : List.Forall₂ (table.Leads n) links children) (hm : links.lookup name = some m)
    (hd : Entry.named? name children = some d) (hnodup : (children.map Entry.name).Nodup)
    (hgrown : other.Holds (some n) m (d.regrow grown names))
    (hother : ∀ link b, table.Leads n link b → link.1 ≠ name → other.Leads n link b) :
    List.Forall₂ (other.Leads n) links (Entry.regrowIn grown name names children) := by
  induction h with
  | nil => cases hm
  | @cons link b links children hleads hrest ih =>
    obtain ⟨found, k⟩ := link
    have hname : found = b.name := hleads.1
    unfold Entry.named? at hd
    rw [List.find?_cons] at hd
    rw [List.lookup_cons, hname] at hm
    rw [List.map_cons, List.nodup_cons] at hnodup
    rw [Entry.regrowIn]
    by_cases heq : b.name = name
    · rw [beq_iff_eq.2 heq.symm] at hm
      rw [beq_iff_eq.2 heq] at hd
      cases hm
      cases hd
      rw [if_pos heq]
      refine .cons ⟨hname.trans (congrArg EntryHead.name (Entry.head_regrow grown names d).symm), hgrown⟩ ?_
      refine (forall₂_mem_right hrest).imp fun link b' hb' => hother link b' hb'.2 ?_
      rw [hb'.2.1, ← heq]
      exact fun hsame => hnodup.1 (hsame ▸ List.mem_map_of_mem hb'.1)
    · rw [beq_false_of_ne (Ne.symm heq)] at hm
      rw [beq_false_of_ne heq] at hd
      rw [if_neg heq]
      exact .cons (hother _ _ hleads (hname ▸ heq)) (ih hm hd hnodup.2)

theorem Leads.add_of_ne {link : String × Nat} {name : String} (h : table.Leads n link e) (hd : table.Leads n (name, m) d)
    (hname : link.1 ≠ name) (hchain : table.Chain n numbers) (hbelow : table.Below m p)
    (hc : table.Holds none c child) : (table.add p c).Leads n link e := by
  obtain ⟨_, hentry, _⟩ := hc.exists_links
  have hlink := Holds.chain_child h hchain
  refine ⟨h.1, h.2.add_of_not_below hlink hentry ?_ ?_⟩
  · intro hp
    -- the parent is below one child only
    have heq : m = link.2 := hbelow.child_unique hp (Holds.chain_child hd hchain) hlink
    obtain ⟨_, hfound, _⟩ := hd.2.exists_links
    obtain ⟨_, hfound', _⟩ := h.2.exists_links
    rw [heq, hfound'] at hfound
    have hhead : e.head = d.head := congrArg LinkedEntry.head (Option.some.inj hfound)
    exact hname (h.1.trans ((congrArg EntryHead.name hhead).trans hd.1.symm))
  · intro hp
    rw [hp.eq_of_root hc.chain_root] at hlink
    cases hlink.unique hc.chain_root

theorem Holds.add_along {names : List String} (h : table.Holds parent n e) (hchain : table.Chain n numbers)
    (he : e.All Entry.Distinct) (hp : table.follow? n names = some p) (hc : table.Holds none c child)
    (hnew : c ∉ n :: numbers) : ∃ d, e.descend? names = some d
      ∧ (table.add p c).Holds parent n (e.regrow (Entry.addTo child d.children) names) := by
  induction names generalizing n e parent numbers with
  | nil =>
    cases hp
    refine ⟨e, rfl, ?_⟩
    obtain ⟨head, children⟩ := e
    rw [Entry.regrow]
    exact h.add_top hchain hc hnew
  | cons name rest ih =>
    obtain ⟨links, hentry, hlinks⟩ := h.exists_links
    obtain ⟨links', hentry', _⟩ := hc.exists_links
    unfold follow? at hp
    rw [hentry] at hp
    obtain ⟨m, hm, hrest⟩ := Option.bind_eq_some_iff.1 hp
    obtain ⟨b, hb, hleads⟩ := exists_of_lookup (holdsAll_iff.1 hlinks) hm
    have hchild := Holds.chain_child hleads hchain
    have hbelow := hleads.2.below_of_follow? hchild hrest
    have hroot : c ≠ m := by
      rintro rfl
      cases hchild.unique hc.chain_root
    obtain ⟨d, hd, hgrown⟩ := ih hleads.2 hchild (he.child (Entry.named?_spec hb).1) hrest
      (fun hmem => (List.mem_cons.1 hmem).elim hroot hnew)
    have hbelow' : p ≠ n := by
      rintro rfl
      obtain ⟨others, hp, hmem⟩ := hbelow
      rw [hp.unique hchain] at hmem
      exact (List.nodup_cons.1 hchild.nodup).1 hmem
    have hne : n ≠ c := fun heq => hnew (heq ▸ List.mem_cons_self)
    refine ⟨d, ?_, ?_⟩
    · unfold Entry.descend? Entry.child?
      rw [hb]
      exact hd
    · obtain ⟨head, children⟩ := e
      have hdistinct := (Entry.all_mk_iff.1 he).1
      unfold Entry.Distinct at hdistinct
      rw [← Entry.names_eq] at hdistinct
      rw [Entry.regrow, Holds]
      refine ⟨links, (getElem?_add_of_ne hentry' hbelow'.symm hne).trans hentry, holdsAll_iff.2 ?_⟩
      exact forall₂_regrowIn (holdsAll_iff.1 hlinks) hm hb hdistinct hgrown fun link d' hd' hname =>
        hd'.add_of_ne hleads hname hchain hbelow hc

theorem Holds.add {names : List String} (h : table.Holds none n e) (he : e.All Entry.Distinct)
    (hp : table.follow? n names = some p) (hc : table.Holds none c child) (hne : c ≠ n) : ∃ d,
      e.descend? names = some d
        ∧ (table.add p c).Holds none n (e.regrow (Entry.addTo child d.children) names) :=
  h.add_along h.chain_root he hp hc (fun hmem => hne (List.mem_singleton.1 hmem))

/--
Tables that come of creating entries and adding them to each other.
-/
inductive Built : EntryTable → Prop
  | empty : Built .empty
  | create {table : EntryTable} (h : Built table) (label : String) (head : EntryHead) : Built (table.create label head)
  | add {table : EntryTable} (h : Built table) (parent child : Nat) : Built (table.add parent child)

theorem Holds.lt (h : table.Holds parent n e) : n < table.entries.length := by
  obtain ⟨links, hentry, _⟩ := h.exists_links
  exact (List.getElem?_eq_some_iff.1 hentry).1

theorem addTo_eq_append {entries : List Entry} (h : child.name ∉ entries.map Entry.name) :
    Entry.addTo child entries = entries ++ [child] := by
  induction entries with
  | nil => rfl
  | cons e rest ih =>
    rw [List.map_cons, List.mem_cons, not_or] at h
    rw [Entry.addTo, if_neg (Ne.symm h.1), ih h.2, List.cons_append]

structure Enlarges (origin table : EntryTable) : Prop where
  built : Built table
  length : origin.entries.length ≤ table.entries.length
  stays : ∀ n e, origin.Holds none n e → table.Holds none n e

variable {origin : EntryTable} {head : EntryHead}

theorem Enlarges.trans (h : Enlarges origin table) (h' : Enlarges table other) : Enlarges origin other where
  built := h'.built
  length := h.length.trans h'.length
  stays n e hn := h'.stays n e (h.stays n e hn)

theorem Enlarges.add (h : Enlarges origin table) (hn : table.Holds none n e) (hc : table.Holds none c child)
    (hlater : origin.entries.length ≤ n) (hlater' : origin.entries.length ≤ c) :
    Enlarges origin (table.add n c) := by
  obtain ⟨links, hentry, _⟩ := hc.exists_links
  refine ⟨h.built.add n c, ?_, fun m d hm => ?_⟩
  · rw [entries_add hentry, List.length_modify, List.length_modify]
    exact h.length
  · have hheld := h.stays m d hm
    apply hheld.add_of_not_below hheld.chain_root hentry
    · exact fun hbelow => absurd hm.lt (Nat.not_lt.2 (hbelow.eq_of_root hn.chain_root ▸ hlater))
    · exact fun hbelow => absurd hm.lt (Nat.not_lt.2 (hbelow.eq_of_root hc.chain_root ▸ hlater'))

theorem exists_enlarges_children {children done : List Entry} (h : Enlarges origin table)
    (hn : table.Holds none n (.mk head done)) (hlater : origin.entries.length ≤ n)
    (hnodup : ((done ++ children).map Entry.name).Nodup)
    (hchildren : ∀ c ∈ children, ∀ table, Built table → ∃ after k, Enlarges table after
      ∧ table.entries.length ≤ k ∧ after.Holds none k c) :
    ∃ after, Enlarges origin after ∧ after.Holds none n (.mk head (done ++ children)) := by
  induction children generalizing table done with
  | nil =>
    rw [List.append_nil]
    exact ⟨table, h, hn⟩
  | cons child rest ih =>
    rw [List.forall_mem_cons] at hchildren
    obtain ⟨after, k, hlarger, hk, hchild⟩ := hchildren.1 table h.built
    have hroot := hlarger.stays n _ hn
    have hne : k ≠ n := fun heq => absurd hn.lt (Nat.not_lt.2 (heq ▸ hk))
    have hname : child.name ∉ done.map Entry.name := by
      rw [List.map_append, List.map_cons, List.nodup_append] at hnodup
      exact fun hmem => hnodup.2.2 _ hmem _ List.mem_cons_self rfl
    have hadded := hroot.add_top hroot.chain_root hchild fun hmem => hne (List.mem_singleton.1 hmem)
    rw [show Entry.children (.mk head done) = done from rfl, addTo_eq_append hname] at hadded
    rw [List.append_cons] at hnodup ⊢
    exact ih ((h.trans hlarger).add hroot hchild hlater (h.length.trans hk)) hadded hnodup hchildren.2

theorem exists_enlarges {e : Entry} (he : e.All Entry.Distinct) {table : EntryTable} (h : Built table) :
    ∃ after n, Enlarges table after ∧ table.entries.length ≤ n ∧ after.Holds none n e := by
  have hchildren : ∀ c ∈ e.children, ∀ table, Built table → ∃ after k, Enlarges table after
      ∧ table.entries.length ≤ k ∧ after.Holds none k c :=
    fun c hc table htable => exists_enlarges (he.child hc) htable
  have hcreated : Enlarges table (table.create "" e.head) :=
    ⟨h.create "" e.head, by simp [EntryTable.create], fun _ _ hn => hn.create "" e.head⟩
  have hdistinct : ((([] : List Entry) ++ e.children).map Entry.name).Nodup := by
    rw [List.nil_append, Entry.names_eq]
    exact he.self
  obtain ⟨after, hlarger, hheld⟩ :=
    exists_enlarges_children hcreated (holds_create table "" e.head) le_rfl hdistinct hchildren
  cases e
  exact ⟨after, _, hlarger, le_rfl, hheld⟩
termination_by sizeOf e
decreasing_by exact Entry.sizeOf_lt_of_mem_children hc

theorem exists_built {e : Entry} (he : e.All Entry.Distinct) : ∃ table n, Built table ∧ table.Holds none n e := by
  obtain ⟨table, n, hlarger, _, hheld⟩ := exists_enlarges he .empty
  exact ⟨table, n, hlarger.built, hheld⟩

end Yang.EntryTable

import Mathlib.Data.List.Perm.Basic
import Yang.Proofs.Entry.Regrow

/-!
This module contains the entries of trees by the names on the way to them. Trees whose siblings have different names
are known, but for the order of children, from the heads that are found along all ways.
-/

namespace Yang.Entry

def At (entries : List Entry) (names : List String) (head : EntryHead) : Prop :=
  match names with
  | [] => False
  | name :: rest => ∃ e ∈ entries, e.name = name ∧ ((rest = [] ∧ e.head = head) ∨ At e.children rest head)

structure Orderly (entries : List Entry) : Prop where
  names : (entries.map name).Nodup
  below : ∀ e ∈ entries, e.All Distinct

variable {entries others grown : List Entry} {names rest : List String} {n : String} {h h' : EntryHead}

theorem orderly_children_iff {e : Entry} : Orderly e.children ↔ e.All Distinct := by
  obtain ⟨head, children⟩ := e
  rw [all_mk_iff]
  unfold Distinct
  rw [← names_eq]
  exact ⟨fun h => ⟨h.names, h.below⟩, fun h => ⟨h.1, h.2⟩⟩

theorem Orderly.children (ho : Orderly entries) {e : Entry} (he : e ∈ entries) : Orderly e.children :=
  orderly_children_iff.2 (ho.below e he)

theorem not_at_nil : ¬ At entries [] h := by
  rw [At]
  exact id

theorem ne_nil_of_at (hat : At entries names h) : names ≠ [] := by
  rintro rfl
  exact not_at_nil hat

theorem at_cons_iff : At entries (n :: rest) h
    ↔ ∃ e ∈ entries, e.name = n ∧ ((rest = [] ∧ e.head = h) ∨ At e.children rest h) := by
  rw [At]

theorem not_at_empty : ¬ At [] names h := by
  intro hat
  cases names with
  | nil => exact not_at_nil hat
  | cons n rest =>
    obtain ⟨e, he, _⟩ := at_cons_iff.1 hat
    exact nomatch he

theorem at_append : At (entries ++ others) names h ↔ At entries names h ∨ At others names h := by
  cases names with
  | nil => simp [not_at_nil]
  | cons n rest =>
    rw [at_cons_iff, at_cons_iff, at_cons_iff]
    simp only [List.mem_append, or_and_right, exists_or]

theorem at_cons_entry {e : Entry} : At (e :: others) (n :: rest) h
    ↔ (e.name = n ∧ ((rest = [] ∧ e.head = h) ∨ At e.children rest h)) ∨ At others (n :: rest) h := by
  rw [at_cons_iff, at_cons_iff]
  simp only [List.mem_cons, or_and_right, exists_or, exists_eq_left]

theorem at_perm (hperm : entries.Perm others) : At entries names h ↔ At others names h := by
  cases names with
  | nil => simp [not_at_nil]
  | cons n rest =>
    rw [at_cons_iff, at_cons_iff]
    simp only [hperm.mem_iff]

theorem at_of_mem {e : Entry} (he : e ∈ entries) : At entries [e.name] e.head := by
  rw [at_cons_iff]
  exact ⟨e, he, rfl, .inl ⟨rfl, rfl⟩⟩

theorem mem_names_of_at (hat : At entries (n :: rest) h) : n ∈ entries.map name := by
  rw [at_cons_iff] at hat
  obtain ⟨e, he, rfl, _⟩ := hat
  exact List.mem_map_of_mem he

theorem at_iff_of_named? (ho : Orderly entries) {e : Entry} (he : named? n entries = some e) :
    At entries (n :: rest) h ↔ (rest = [] ∧ e.head = h) ∨ At e.children rest h := by
  rw [at_cons_iff]
  constructor
  · rintro ⟨d, hd, rfl, hat⟩
    rw [named?_of_mem ho.names hd] at he
    cases he
    exact hat
  · intro hat
    exact ⟨e, (named?_spec he).1, (named?_spec he).2, hat⟩

theorem exists_named?_of_mem_names (hn : n ∈ entries.map name) : ∃ e, named? n entries = some e := by
  cases he : named? n entries with
  | some e => exact ⟨e, rfl⟩
  | none =>
    unfold named? at he
    rw [List.find?_eq_none] at he
    obtain ⟨e, hmem, rfl⟩ := List.mem_map.1 hn
    simpa using he e hmem

theorem At.unique (ho : Orderly entries) (hat : At entries names h) (hat' : At entries names h') : h = h' := by
  induction names generalizing entries with
  | nil => exact (not_at_nil hat).elim
  | cons n rest ih =>
    obtain ⟨e, he⟩ := exists_named?_of_mem_names (mem_names_of_at hat)
    rw [at_iff_of_named? ho he] at hat hat'
    rcases hat with ⟨rfl, hhead⟩ | hat
    · rcases hat' with ⟨_, hhead'⟩ | hat'
      · rw [← hhead, ← hhead']
      · exact (not_at_nil hat').elim
    · rcases hat' with ⟨rfl, _⟩ | hat'
      · exact (not_at_nil hat).elim
      · exact ih (ho.children (named?_spec he).1) hat hat'

theorem At.take {way : List String} (hat : At entries (way ++ rest) h) (hne : way ≠ []) : ∃ h', At entries way h' := by
  induction way generalizing entries with
  | nil => exact (hne rfl).elim
  | cons n more ih =>
    rw [List.cons_append, at_cons_iff] at hat
    obtain ⟨e, he, hname, hat⟩ := hat
    cases more with
    | nil => exact ⟨e.head, at_cons_iff.2 ⟨e, he, hname, .inl ⟨rfl, rfl⟩⟩⟩
    | cons m more =>
      rcases hat with ⟨hnil, _⟩ | hat
      · cases hnil
      · obtain ⟨h', hat'⟩ := ih hat (List.cons_ne_nil _ _)
        exact ⟨h', at_cons_iff.2 ⟨e, he, hname, .inr hat'⟩⟩

def Shared (entries others : List Entry) (names : List String) : Prop :=
  ∀ way, way ≠ [] → way <+: names → ∃ h, At entries way h ∧ At others way h

theorem shared_of_at (hsub : ∀ way h, At entries way h → At others way h) (hat : At entries names h) :
    Shared entries others names := by
  rintro way hne ⟨rest, rfl⟩
  obtain ⟨h', hway⟩ := hat.take hne
  exact ⟨h', hway, hsub way h' hway⟩

theorem Shared.symm (h : Shared entries others names) : Shared others entries names := by
  intro way hne hprefix
  obtain ⟨head, hat, hat'⟩ := h way hne hprefix
  exact ⟨head, hat', hat⟩

theorem Shared.named? (hs : Shared entries others (n :: names)) (ho : Orderly entries) (ho' : Orderly others)
    {e : Entry} (he : Entry.named? n entries = some e) :
    ∃ e', Entry.named? n others = some e' ∧ e.head = e'.head ∧ Shared e.children e'.children names := by
  obtain ⟨h, hat, hat'⟩ := hs [n] (List.cons_ne_nil _ _) (by simp)
  obtain ⟨e', he'⟩ := exists_named?_of_mem_names (mem_names_of_at hat')
  refine ⟨e', he', ?_, fun way hne hprefix => ?_⟩
  · rw [at_iff_of_named? ho he] at hat
    rw [at_iff_of_named? ho' he'] at hat'
    simp only [not_at_nil, or_false] at hat hat'
    rw [hat.2, hat'.2]
  · obtain ⟨h, hat, hat'⟩ := hs (n :: way) (List.cons_ne_nil _ _) (by simpa using hprefix)
    rw [at_iff_of_named? ho he] at hat
    rw [at_iff_of_named? ho' he'] at hat'
    simp only [hne, false_and, false_or] at hat hat'
    exact ⟨h, hat, hat'⟩

theorem at_of_descend? {e d : Entry} (he : named? n entries = some e) (hd : e.descend? names = some d) :
    At entries (n :: names) d.head := by
  induction names generalizing entries n e with
  | nil =>
    cases hd
    obtain ⟨hmem, rfl⟩ := named?_spec he
    exact at_of_mem hmem
  | cons m rest ih =>
    obtain ⟨c, hc, hrest⟩ := Option.bind_eq_some_iff.1 hd
    rw [at_cons_iff]
    exact ⟨e, (named?_spec he).1, (named?_spec he).2, .inr (ih hc hrest)⟩

theorem at_below_iff (ho : Orderly entries) {e d : Entry} (he : named? n entries = some e)
    (hd : e.descend? names = some d) (hne : rest ≠ []) :
    At entries (n :: (names ++ rest)) h ↔ At d.children rest h := by
  induction names generalizing entries n e with
  | nil =>
    cases hd
    rw [List.nil_append, at_iff_of_named? ho he]
    simp [hne]
  | cons m more ih =>
    obtain ⟨c, hc, hrest⟩ := Option.bind_eq_some_iff.1 hd
    rw [List.cons_append, at_iff_of_named? ho he, ih (ho.children (named?_spec he).1) hc hrest]
    simp

theorem at_regrowIn_of {p : List String → Prop} {e : Entry} (he : named? n entries = some e)
    (hregrow : ∀ way, At (regrow grown names e).children way h ↔ At e.children way h ∨ p way) (way : List String) :
    At (regrowIn grown n names entries) way h ↔ At entries way h ∨ ∃ rest, way = n :: rest ∧ p rest := by
  obtain ⟨before, after, heq, _, hgrown⟩ := regrowIn_eq_of_named? grown names he
  obtain ⟨_, rfl⟩ := named?_spec he
  rw [hgrown, heq]
  cases way with
  | nil => simp [not_at_nil]
  | cons m rest =>
    have hname : (regrow grown names e).name = e.name := congrArg EntryHead.name (head_regrow grown names e)
    rw [at_append, at_append, at_cons_entry, at_cons_entry, hregrow, hname, head_regrow]
    constructor
    · rintro (hbefore | ⟨rfl, hself | hbelow | hnew⟩ | hafter)
      · exact .inl (.inl hbefore)
      · exact .inl (.inr (.inl ⟨rfl, .inl hself⟩))
      · exact .inl (.inr (.inl ⟨rfl, .inr hbelow⟩))
      · exact .inr ⟨rest, rfl, hnew⟩
      · exact .inl (.inr (.inr hafter))
    · rintro ((hbefore | ⟨rfl, hself | hbelow⟩ | hafter) | ⟨_, hway, hnew⟩)
      · exact .inl hbefore
      · exact .inr (.inl ⟨rfl, .inl hself⟩)
      · exact .inr (.inl ⟨rfl, .inr (.inl hbelow)⟩)
      · exact .inr (.inr hafter)
      · cases hway
        exact .inr (.inl ⟨rfl, .inr (.inr hnew)⟩)

theorem at_regrow {e d : Entry} (hd : e.descend? names = some d) (way : List String) :
    At (regrow (d.children ++ grown) names e).children way h
      ↔ At e.children way h ∨ ∃ rest, way = names ++ rest ∧ At grown rest h := by
  induction names generalizing e way with
  | nil =>
    cases hd
    obtain ⟨head, children⟩ := d
    rw [regrow]
    dsimp only [Entry.children]
    rw [at_append]
    simp
  | cons m more ih =>
    obtain ⟨head, children⟩ := e
    obtain ⟨c, hc, hrest⟩ := Option.bind_eq_some_iff.1 hd
    have hnamed : named? m children = some c := hc
    rw [regrow]
    refine (at_regrowIn_of hnamed (ih hrest) way).trans ?_
    constructor
    · rintro (hold | ⟨_, rfl, rest, rfl, hnew⟩)
      · exact .inl hold
      · exact .inr ⟨rest, rfl, hnew⟩
    · rintro (hold | ⟨rest, rfl, hnew⟩)
      · exact .inl hold
      · exact .inr ⟨_, rfl, rest, rfl, hnew⟩

theorem at_regrowIn {e d : Entry} (he : named? n entries = some e) (hd : e.descend? names = some d)
    (way : List String) :
    At (regrowIn (d.children ++ grown) n names entries) way h
      ↔ At entries way h ∨ ∃ rest, way = n :: names ++ rest ∧ At grown rest h := by
  rw [at_regrowIn_of he (at_regrow hd)]
  constructor
  · rintro (hold | ⟨_, rfl, rest, rfl, hnew⟩)
    · exact .inl hold
    · exact .inr ⟨rest, rfl, hnew⟩
  · rintro (hold | ⟨rest, rfl, hnew⟩)
    · exact .inl hold
    · exact .inr ⟨_, rfl, rest, rfl, hnew⟩

theorem mem_inOrderAll {e : Entry} : e ∈ inOrderAll entries ↔ ∃ d ∈ entries, d.inOrder = e := by
  induction entries with
  | nil => simp [inOrderAll]
  | cons first rest ih =>
    rw [inOrderAll, List.mem_cons, ih]
    simp [eq_comm]

theorem head_inOrder (e : Entry) : e.inOrder.head = e.head := by
  obtain ⟨head, children⟩ := e
  rw [inOrder]
  rfl

theorem name_inOrder (e : Entry) : e.inOrder.name = e.name :=
  congrArg EntryHead.name (head_inOrder e)

theorem inOrder_eq (e : Entry) :
    e.inOrder = mk e.head ((inOrderAll e.children).mergeSort (fun a b => decide (a.name ≤ b.name))) := by
  obtain ⟨head, children⟩ := e
  rw [inOrder]
  rfl

theorem Within.of_children {f : Entry → Entry} {d e : Entry} (hf : ∀ e, ∀ c ∈ (f e).children, ∃ b ∈ e.children, f b = c)
    (h : Within d (f e)) : ∃ c, Within c e ∧ f c = d := by
  generalize htree : f e = tree at h
  induction h generalizing e with
  | self => exact ⟨e, .self e, htree⟩
  | child hc _ ih =>
    subst htree
    obtain ⟨b, hb, rfl⟩ := hf e _ hc
    obtain ⟨c, hwithin, heq⟩ := ih rfl
    exact ⟨c, .child hb hwithin, heq⟩

theorem within_inOrder {d e : Entry} (h : Within d e.inOrder) : ∃ c, Within c e ∧ c.inOrder = d := by
  apply h.of_children
  intro e c hc
  rw [inOrder_eq] at hc
  exact mem_inOrderAll.1 (List.mem_mergeSort.1 hc)

theorem Within.inOrder {d e : Entry} (h : Within d e) : Within d.inOrder e.inOrder := by
  induction h with
  | self => exact .self _
  | child hc _ ih =>
    refine .child ?_ ih
    rw [inOrder_eq]
    exact List.mem_mergeSort.2 (mem_inOrderAll.2 ⟨_, hc, rfl⟩)

theorem sizeOf_lt_of_mem_children {c e : Entry} (hc : c ∈ e.children) : sizeOf c < sizeOf e := by
  obtain ⟨head, children⟩ := e
  have hsmaller : sizeOf c < sizeOf children := List.sizeOf_lt_of_mem hc
  simp only [mk.sizeOf_spec]
  omega

theorem names_inOrderAll (entries : List Entry) : (inOrderAll entries).map name = entries.map name := by
  induction entries with
  | nil => rfl
  | cons e rest ih =>
    rw [inOrderAll, List.map_cons, List.map_cons, ih]
    unfold name
    rw [head_inOrder]

structure Likewise (entries entries' : List Entry) : Prop where
  names : (entries.map name).Perm (entries'.map name)
  ways : ∀ way h, At entries way h ↔ At entries' way h

variable {entries' others' : List Entry}

theorem likewise_of_at_iff (ho : Orderly entries) (ho' : Orderly entries')
    (hat : ∀ way h, At entries way h ↔ At entries' way h) : Likewise entries entries' where
  names := by
    rw [List.perm_ext_iff_of_nodup ho.names ho'.names]
    intro n
    constructor
    · intro hn
      obtain ⟨c, hc, rfl⟩ := List.mem_map.1 hn
      exact mem_names_of_at ((hat _ _).1 (at_of_mem hc))
    · intro hn
      obtain ⟨c, hc, rfl⟩ := List.mem_map.1 hn
      exact mem_names_of_at ((hat _ _).2 (at_of_mem hc))
  ways := hat

theorem Likewise.symm (h : Likewise entries entries') : Likewise entries' entries :=
  ⟨h.names.symm, fun way h' => (h.ways way h').symm⟩

theorem Likewise.trans (h : Likewise entries entries') (h' : Likewise entries' others) : Likewise entries others :=
  ⟨h.names.trans h'.names, fun way head => (h.ways way head).trans (h'.ways way head)⟩

theorem likewise_of_perm (h : entries.Perm entries') : Likewise entries entries' :=
  ⟨h.map name, fun _ _ => at_perm h⟩

theorem Likewise.append (h : Likewise entries entries') (h' : Likewise others others') :
    Likewise (entries ++ others) (entries' ++ others') where
  names := by
    rw [List.map_append, List.map_append]
    exact h.names.append h'.names
  ways := by
    intro way head
    rw [at_append, at_append, h.ways, h'.ways]

theorem Likewise.cons {head : EntryHead} (h : Likewise entries entries') (h' : Likewise others others') :
    Likewise (Entry.mk head entries :: others) (Entry.mk head entries' :: others') where
  names := by
    rw [List.map_cons, List.map_cons]
    exact h'.names.cons _
  ways := by
    intro way head
    cases way with
    | nil => simp [not_at_nil]
    | cons n rest =>
      rw [at_cons_entry, at_cons_entry, h'.ways]
      have hbelow := h.ways rest head
      change _ ∧ (_ ∨ At entries rest head) ∨ _ ↔ _ ∧ (_ ∨ At entries' rest head) ∨ _
      rw [hbelow]
      rfl

theorem Likewise.head_named? (h : Likewise entries entries') (hn : (entries.map name).Nodup) (n : String) :
    (named? n entries).map head = (named? n entries').map head := by
  have hn' : (entries'.map name).Nodup := h.names.nodup_iff.1 hn
  cases hnamed : named? n entries with
  | none =>
    rw [named?_eq_none_iff, h.names.mem_iff, ← named?_eq_none_iff] at hnamed
    rw [hnamed]
  | some e =>
    obtain ⟨he, rfl⟩ := named?_spec hnamed
    have hat := at_of_mem he
    rw [h.ways, at_cons_iff] at hat
    obtain ⟨e', he', hname, hhead⟩ := hat
    rw [← hname, named?_of_mem hn' he', Option.map_some, Option.map_some]
    rcases hhead with ⟨_, hhead⟩ | hnil
    · rw [hhead]
    · exact (not_at_nil hnil).elim

theorem Likewise.exists_like (hl : Likewise entries entries') (ho : Orderly entries) (ho' : Orderly entries')
    {c : Entry} (hc : c ∈ entries) : ∃ c' ∈ entries', c.head = c'.head ∧ Likewise c.children c'.children := by
  have hhead := hl.head_named? ho.names c.name
  rw [named?_of_mem ho.names hc, Option.map_some, eq_comm, Option.map_eq_some_iff] at hhead
  obtain ⟨c', hnamed', heq⟩ := hhead
  have hc' := (named?_spec hnamed').1
  refine ⟨c', hc', heq.symm, likewise_of_at_iff (ho.children hc) (ho'.children hc') fun way h => ?_⟩
  cases way with
  | nil => simp [not_at_nil]
  | cons n rest =>
    have hway := hl.ways (c.name :: n :: rest) h
    rw [at_iff_of_named? ho (named?_of_mem ho.names hc), at_iff_of_named? ho' hnamed'] at hway
    simpa using hway

theorem Likewise.inOrder_eq {e d : Entry} (hl : Likewise e.children d.children) (ho : Orderly e.children)
    (ho' : Orderly d.children) (hhead : e.head = d.head) : e.inOrder = d.inOrder := by
  rw [Entry.inOrder_eq e, Entry.inOrder_eq d, hhead]
  congr 1
  apply mergeSort_eq_of_mem_iff
  · rw [names_inOrderAll]
    exact ho.names
  · rw [names_inOrderAll]
    exact ho'.names
  intro x
  rw [mem_inOrderAll, mem_inOrderAll]
  -- the recursion is on a child of the first tree in both directions
  constructor
  · rintro ⟨c, hc, rfl⟩
    obtain ⟨c', hc', heq, hbelow⟩ := hl.exists_like ho ho' hc
    exact ⟨c', hc', (hbelow.inOrder_eq (ho.children hc) (ho'.children hc') heq).symm⟩
  · rintro ⟨c', hc', rfl⟩
    obtain ⟨c, hc, heq, hbelow⟩ := hl.symm.exists_like ho' ho hc'
    exact ⟨c, hc, hbelow.symm.inOrder_eq (ho.children hc) (ho'.children hc') heq.symm⟩
termination_by sizeOf e
decreasing_by
  all_goals
    exact sizeOf_lt_of_mem_children hc

end Yang.Entry

import Yang.Proofs.Entry.At

/-!
This module contains the entries on the way along names from an entry. In a tree whose siblings have different names
they are the entries above those that a walk comes to, and the names are known from any text that tells them.
-/

namespace Yang.Entry

def trail? (e : Entry) : List String → Option (List Entry)
  | [] => some []
  | name :: rest => (e.child? name).bind fun c => (c.trail? rest).map (c :: ·)

def Visit.down (v : Visit) (e : Entry) : Visit :=
  ⟨e.head, v.head :: v.above⟩

def Visit.along (v : Visit) (entries : List Entry) : Visit :=
  entries.foldl Visit.down v

variable {e : Entry} {names : List String} {entries : List Entry}

theorem trail?_cons_eq_some {name : String} : e.trail? (name :: names) = some entries
    ↔ ∃ c more, e.child? name = some c ∧ c.trail? names = some more ∧ entries = c :: more := by
  rw [trail?, Option.bind_eq_some_iff]
  constructor
  · rintro ⟨c, hc, htrail⟩
    obtain ⟨more, hmore, rfl⟩ := Option.map_eq_some_iff.1 htrail
    exact ⟨c, more, hc, hmore, rfl⟩
  · rintro ⟨c, more, hc, hmore, rfl⟩
    exact ⟨c, hc, by rw [hmore]; rfl⟩

theorem names_of_trail? (h : e.trail? names = some entries) : entries.map name = names := by
  induction names generalizing e entries with
  | nil =>
    cases h
    rfl
  | cons n rest ih =>
    obtain ⟨c, more, hc, hmore, rfl⟩ := trail?_cons_eq_some.1 h
    rw [List.map_cons, ih hmore, (named?_spec hc).2]

theorem within_of_trail? (h : e.trail? names = some entries) :
    ∀ c ∈ entries, ∃ d, Within d e ∧ c ∈ d.children := by
  induction names generalizing e entries with
  | nil =>
    cases h
    exact List.forall_mem_nil _
  | cons n rest ih =>
    obtain ⟨c, more, hc, hmore, rfl⟩ := trail?_cons_eq_some.1 h
    have hchild := (named?_spec hc).1
    rw [List.forall_mem_cons]
    refine ⟨⟨e, .self _, hchild⟩, fun c' hc' => ?_⟩
    obtain ⟨d, hd, hc'⟩ := ih hmore c' hc'
    exact ⟨d, .child hchild hd, hc'⟩

theorem All.trail? {p : EntryHead → List EntryHead → Prop} (h : e.All p) (htrail : e.trail? names = some entries) :
    ∀ c ∈ entries, c.All p := by
  induction names generalizing e entries with
  | nil =>
    cases htrail
    exact List.forall_mem_nil _
  | cons n rest ih =>
    obtain ⟨c, more, hc, hmore, rfl⟩ := trail?_cons_eq_some.1 htrail
    have hchild := h.child (named?_spec hc).1
    rw [List.forall_mem_cons]
    exact ⟨hchild, ih hchild hmore⟩

theorem heads_along (v : Visit) (entries : List Entry) :
    (v.along entries).head :: (v.along entries).above = (entries.map head).reverse ++ v.head :: v.above := by
  unfold Visit.along
  induction entries generalizing v with
  | nil => rfl
  | cons c rest ih =>
    rw [List.foldl_cons, ih, List.map_cons, List.reverse_cons, List.append_assoc]
    rfl

theorem way_along {root : EntryHead} (hroot : root.kind = .module) (hentries : ∀ e ∈ entries, e.head.kind ≠ .module) :
    (Visit.along ⟨root, []⟩ entries).way = entries.map head := by
  unfold Visit.way
  rw [heads_along, List.takeWhile_append_of_pos, List.takeWhile_cons_of_neg, List.append_nil, List.reverse_reverse]
  · rw [hroot]
    decide
  · intro head hhead
    rw [List.mem_reverse, List.mem_map] at hhead
    obtain ⟨e, he, rfl⟩ := hhead
    simpa using hentries e he

theorem path_along {root : EntryHead} (hroot : root.kind = .module) (hentries : ∀ e ∈ entries, e.head.kind ≠ .module) :
    (Visit.along ⟨root, []⟩ entries).path = pathText (entries.map fun e => e.head.qualifiedName) := by
  unfold Visit.path
  rw [way_along hroot hentries, List.map_map]
  rfl

theorem dataPath_along {root : EntryHead} (hroot : root.kind = .module)
    (hentries : ∀ e ∈ entries, e.head.kind ≠ .module) : (Visit.along ⟨root, []⟩ entries).dataPath
      = pathText ((entries.filter fun e => !e.head.kind.isGroup).map fun e => e.head.qualifiedName) := by
  unfold Visit.dataPath
  rw [way_along hroot hentries, List.filter_map, List.map_map]
  rfl

theorem mem_visitsAll {v : Visit} {above : List EntryHead} :
    v ∈ visitsAll above entries ↔ ∃ c ∈ entries, v ∈ visits above c := by
  induction entries with
  | nil => simp [visitsAll]
  | cons c rest ih => simp [visitsAll, ih]

theorem visits_eq (above : List EntryHead) (e : Entry) :
    visits above e = ⟨e.head, above⟩ :: visitsAll (e.head :: above) e.children := by
  obtain ⟨head, children⟩ := e
  rw [visits]
  rfl

theorem along_mem_visits (h : e.trail? names = some entries) (above : List EntryHead) :
    Visit.along ⟨e.head, above⟩ entries ∈ visits above e := by
  induction names generalizing e entries above with
  | nil =>
    cases h
    rw [visits_eq]
    exact List.mem_cons_self
  | cons n rest ih =>
    obtain ⟨c, more, hc, hmore, rfl⟩ := trail?_cons_eq_some.1 h
    rw [visits_eq]
    exact List.mem_cons_of_mem _ (mem_visitsAll.2 ⟨c, (named?_spec hc).1, ih hmore _⟩)

theorem mem_visits_iff {e : Entry} (h : e.All Distinct) {above : List EntryHead} {v : Visit} :
    v ∈ visits above e ↔ ∃ names entries, e.trail? names = some entries ∧ v = Visit.along ⟨e.head, above⟩ entries := by
  constructor
  · intro hv
    rw [visits_eq, List.mem_cons, mem_visitsAll] at hv
    rcases hv with rfl | ⟨c, hc, hv⟩
    · exact ⟨[], [], rfl, rfl⟩
    · obtain ⟨names, entries, htrail, rfl⟩ := (mem_visits_iff (h.child hc)).1 hv
      have hchild := named?_of_mem (orderly_children_iff.2 h).names hc
      exact ⟨c.name :: names, c :: entries, trail?_cons_eq_some.2 ⟨c, entries, hchild, htrail, rfl⟩, rfl⟩
  · rintro ⟨names, entries, htrail, rfl⟩
    exact along_mem_visits htrail above
termination_by sizeOf e
decreasing_by exact sizeOf_lt_of_mem_children hc

theorem Within.head_mem_visits {d e : Entry} (h : Within d e) (above : List EntryHead) :
    d.head ∈ (visits above e).map Visit.head := by
  induction h generalizing above with
  | self =>
    rw [visits_eq]
    exact List.mem_cons_self
  | @child c e hc _ ih =>
    obtain ⟨v, hv, hhead⟩ := List.mem_map.1 (ih (e.head :: above))
    rw [visits_eq]
    exact List.mem_cons_of_mem _ (List.mem_map.2 ⟨v, mem_visitsAll.2 ⟨c, hc, hv⟩, hhead⟩)

theorem exists_within_of_mem_visits {e : Entry} {above : List EntryHead} {v : Visit} (h : v ∈ visits above e) :
    ∃ d, Within d e ∧ d.head = v.head := by
  rw [visits_eq, List.mem_cons, mem_visitsAll] at h
  rcases h with rfl | ⟨c, hc, hv⟩
  · exact ⟨e, .self e, rfl⟩
  · obtain ⟨d, hd, hhead⟩ := exists_within_of_mem_visits hv
    exact ⟨d, .child hc hd, hhead⟩
termination_by sizeOf e
decreasing_by exact sizeOf_lt_of_mem_children hc

end Yang.Entry

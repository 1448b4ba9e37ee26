import Yang.Proofs.Entry.Regrow

/-!
This module contains trees without the entries of a namespace. Such an entry goes with everything below it, and all
others stay where they are. What is put below an entry that goes makes no difference.
-/

namespace Yang.Entry

mutual

/--
A tree without the entries of a namespace below its root, and without whatever is below them.
-/
def without (uri : String) (e : Entry) : Entry :=
  match e with
  | mk head children => mk head (withoutAll uri children)

@[inherit_doc without]
def withoutAll (uri : String) (entries : List Entry) : List Entry :=
  match entries with
  | [] => []
  | e :: rest => if e.head.uri = uri then withoutAll uri rest else without uri e :: withoutAll uri rest

end

variable {uri n : String} {entries grown grown' : List Entry} {names : List String} {e c d : Entry}

@[simp]
theorem head_without (uri : String) (e : Entry) : (e.without uri).head = e.head := by
  obtain ⟨head, children⟩ := e
  rw [without]
  rfl

@[simp]
theorem children_without (uri : String) (e : Entry) : (e.without uri).children = withoutAll uri e.children := by
  obtain ⟨head, children⟩ := e
  rw [without]
  rfl

theorem name_without (uri : String) (e : Entry) : (e.without uri).name = e.name :=
  congrArg EntryHead.name (head_without uri e)

theorem withoutAll_cons_of_eq (h : e.head.uri = uri) : withoutAll uri (e :: entries) = withoutAll uri entries := by
  rw [withoutAll, if_pos h]

theorem withoutAll_cons_of_ne (h : e.head.uri ≠ uri) :
    withoutAll uri (e :: entries) = e.without uri :: withoutAll uri entries := by
  rw [withoutAll, if_neg h]

theorem withoutAll_append (uri : String) (entries more : List Entry) :
    withoutAll uri (entries ++ more) = withoutAll uri entries ++ withoutAll uri more := by
  induction entries with
  | nil => rw [withoutAll, List.nil_append, List.nil_append]
  | cons e rest ih =>
    rw [List.cons_append]
    by_cases h : e.head.uri = uri
    · rw [withoutAll_cons_of_eq h, withoutAll_cons_of_eq h, ih]
    · rw [withoutAll_cons_of_ne h, withoutAll_cons_of_ne h, ih, List.cons_append]

theorem names_withoutAll (uri : String) (entries : List Entry) :
    ((withoutAll uri entries).map name).Sublist (entries.map name) := by
  induction entries with
  | nil => rw [withoutAll]
  | cons e rest ih =>
    rw [List.map_cons]
    by_cases h : e.head.uri = uri
    · rw [withoutAll_cons_of_eq h]
      exact ih.cons _
    · rw [withoutAll_cons_of_ne h, List.map_cons, name_without]
      exact ih.cons_cons _

theorem withoutAll_eq_nil (h : ∀ e ∈ entries, e.head.uri = uri) : withoutAll uri entries = [] := by
  induction entries with
  | nil => rw [withoutAll]
  | cons e rest ih =>
    rw [List.forall_mem_cons] at h
    rw [withoutAll_cons_of_eq h.1, ih h.2]

theorem withoutAll_eq_self {entries : List Entry} (h : ∀ e ∈ entries, e.All (fun head _ => head.uri ≠ uri)) :
    withoutAll uri entries = entries := by
  match entries with
  | [] => rw [withoutAll]
  | mk head children :: rest =>
    rw [List.forall_mem_cons, all_mk_iff] at h
    have hne : (mk head children).head.uri ≠ uri := h.1.1
    rw [withoutAll_cons_of_ne hne, without, withoutAll_eq_self h.1.2, withoutAll_eq_self h.2]
termination_by sizeOf entries

theorem without_eq_self (h : e.All (fun head _ => head.uri ≠ uri)) : e.without uri = e := by
  obtain ⟨head, children⟩ := e
  rw [all_mk_iff] at h
  rw [without, withoutAll_eq_self h.2]

theorem named?_withoutAll (he : named? n entries = some e) (huri : e.head.uri ≠ uri) :
    named? n (withoutAll uri entries) = some (e.without uri) := by
  induction entries with
  | nil => cases he
  | cons first rest ih =>
    unfold named? at he ih ⊢
    rw [List.find?_cons] at he
    split at he
    · next hname =>
      cases he
      rw [withoutAll_cons_of_ne huri, List.find?_cons, name_without, hname]
    · next hname =>
      by_cases hfirst : first.head.uri = uri
      · rw [withoutAll_cons_of_eq hfirst]
        exact ih he
      · rw [withoutAll_cons_of_ne hfirst, List.find?_cons, name_without, hname]
        exact ih he

theorem named?_withoutAll_eq_none (h : named? n entries = none) : named? n (withoutAll uri entries) = none := by
  rw [named?_eq_none_iff] at h ⊢
  exact fun hin => h ((names_withoutAll uri entries).subset hin)

theorem child?_without (hc : e.child? n = some c) (huri : c.head.uri ≠ uri) :
    (e.without uri).child? n = some (c.without uri) := by
  unfold child?
  rw [children_without]
  exact named?_withoutAll hc huri

theorem withoutAll_regrowIn (he : named? n entries = some e) (huri : e.head.uri ≠ uri)
    (h : (regrow grown names e).without uri = regrow grown' names (e.without uri)) :
    withoutAll uri (regrowIn grown n names entries) = regrowIn grown' n names (withoutAll uri entries) := by
  induction entries with
  | nil => cases he
  | cons first rest ih =>
    unfold named? at he ih
    rw [List.find?_cons] at he
    rw [regrowIn]
    split at he
    · next hname =>
      cases he
      have hgrown : (regrow grown names e).head.uri ≠ uri := by
        rw [head_regrow]
        exact huri
      rw [if_pos (eq_of_beq hname), withoutAll_cons_of_ne hgrown, withoutAll_cons_of_ne huri, h, regrowIn,
        name_without, if_pos (eq_of_beq hname)]
    · next hname =>
      have hne : first.name ≠ n := by simpa using hname
      rw [if_neg hne]
      by_cases hfirst : first.head.uri = uri
      · rw [withoutAll_cons_of_eq hfirst, withoutAll_cons_of_eq hfirst]
        exact ih he
      · rw [withoutAll_cons_of_ne hfirst, withoutAll_cons_of_ne hfirst, regrowIn, name_without, if_neg hne, ih he]

theorem withoutAll_regrowIn_eq_self (he : named? n entries = some e)
    (h : (regrow grown names e).without uri = e.without uri) :
    withoutAll uri (regrowIn grown n names entries) = withoutAll uri entries := by
  obtain ⟨before, after, heq, _, hgrown⟩ := regrowIn_eq_of_named? grown names he
  rw [hgrown, heq, withoutAll_append, withoutAll_append]
  congr 1
  rw [withoutAll, withoutAll, head_regrow, h]

theorem without_regrow_eq_self (hd : e.descend? names = some d) (h : withoutAll uri grown = withoutAll uri d.children) :
    (regrow grown names e).without uri = e.without uri := by
  induction names generalizing e with
  | nil =>
    cases hd
    obtain ⟨head, children⟩ := d
    rw [regrow, without, without, h]
    rfl
  | cons name rest ih =>
    obtain ⟨head, children⟩ := e
    obtain ⟨c, hc, hrest⟩ := Option.bind_eq_some_iff.1 hd
    have hchildren : withoutAll uri (regrowIn grown name rest children) = withoutAll uri children :=
      withoutAll_regrowIn_eq_self hc (ih hrest)
    rw [regrow, without, without, hchildren]

end Yang.Entry

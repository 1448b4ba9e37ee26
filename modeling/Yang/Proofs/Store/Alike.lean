import Yang.Proofs.Store.Extends
import Yang.Proofs.Store.TopLevel

/-!
This module contains stores that look alike: whatever name is looked for, the records found in both are alike. Loading
has the same result in both and keeps them alike, however many records are shadowed by others.
-/

namespace Yang

def Body.outline (body : Body) : Body :=
  { body with typedefs := [], groupings := [], nodes := [], augments := [] }

def Document.outline : Document → Document
  | main m => main { m with body := m.body.outline }
  | part s => part { s with body := s.body.outline }

structure SameNames (exact : Prop) (names names' : List String) : Prop where
  perm : names.Perm names'
  eq : exact → names = names'

/--
What documents have in common when one stands for the other.
-/
structure Likeness (exact : Prop) (r : Document → Document → Prop) : Prop where
  refl : ∀ d, r d d
  outline : ∀ {d d'}, r d d' → d.outline = d'.outline
  typedefs : ∀ {d d'}, r d d' →
    SameNames exact (d.body.typedefs.map Typedef.name) (d'.body.typedefs.map Typedef.name)
  groupings : ∀ {d d'}, r d d' →
    SameNames exact (d.body.groupings.map Grouping.name) (d'.body.groupings.map Grouping.name)

namespace Store

variable {r : Document → Document → Prop}

structure Alike (r : Document → Document → Prop) (store store' : Store) : Prop where
  searchPath : store.searchPath = store'.searchPath
  searched : ∀ site, site ∈ store.searched ↔ site ∈ store'.searched
  modules : ∀ name, Option.Rel (fun m m' => r (.main m) (.main m')) (store.module? name) (store'.module? name)
  submodules : ∀ name,
    Option.Rel (fun s s' => r (.part s) (.part s')) (store.submodule? name) (store'.submodule? name)

theorem module?_add_main (store : Store) (m : Module) (name : String) :
    (store.add (.main m)).module? name = (store.module? name).or ([m].find? (fun m => m.name == name)) := by
  unfold add module?
  dsimp only
  split <;> exact List.find?_append

theorem module?_add_part (store : Store) (s : Submodule) (name : String) :
    (store.add (.part s)).module? name = store.module? name := rfl

theorem submodule?_add_main (store : Store) (m : Module) (name : String) :
    (store.add (.main m)).submodule? name = store.submodule? name := by
  unfold add submodule?
  dsimp only
  split <;> rfl

theorem submodule?_add_part (store : Store) (s : Submodule) (name : String) :
    (store.add (.part s)).submodule? name
      = (store.submodule? name).or ([s].find? (fun s => s.name == name)) := by
  unfold add submodule?
  exact List.find?_append

variable {store store' : Store}

theorem Alike.note (h : Alike r store store') (n n' : Note) : Alike r (store.note n) (store'.note n') :=
  ⟨h.searchPath, h.searched, h.modules, h.submodules⟩

theorem Alike.add (h : Alike r store store') (hr : ∀ d, r d d) (document : Document) :
    Alike r (store.add document) (store'.add document) where
  searchPath := by
    rw [(extends_add store document).searchPath, (extends_add store' document).searchPath]
    exact h.searchPath
  searched := by
    rw [searched_add, searched_add]
    exact h.searched
  modules := by
    intro name
    cases document with
    | main m =>
      rw [module?_add_main, module?_add_main]
      apply rel_or (h.modules name)
      apply rel_self
      exact fun m => hr (.main m)
    | part s =>
      rw [module?_add_part, module?_add_part]
      exact h.modules name
  submodules := by
    intro name
    cases document with
    | main m =>
      rw [submodule?_add_main, submodule?_add_main]
      exact h.submodules name
    | part s =>
      rw [submodule?_add_part, submodule?_add_part]
      apply rel_or (h.submodules name)
      apply rel_self
      exact fun s => hr (.part s)

theorem Alike.addAll (h : Alike r store store') (hr : ∀ d, r d d) (documents : List Document) :
    Alike r (store.addAll documents) (store'.addAll documents) := by
  induction documents generalizing store store' with
  | nil => exact h
  | cons document rest ih => exact ih (h.add hr document)

theorem Alike.parse (h : Alike r store store') (hr : ∀ d, r d d) (text source : String) :
    (store.parse text source).1 = (store'.parse text source).1
      ∧ Alike r (store.parse text source).2 (store'.parse text source).2 := by
  unfold Store.parse
  split
  · exact ⟨rfl, h.addAll hr _⟩
  · exact ⟨rfl, h⟩

theorem Alike.readPath (h : Alike r store store') (hr : ∀ d, r d d) (files : Files) (path : Path) :
    (store.readPath files path).1 = (store'.readPath files path).1
      ∧ Alike r (store.readPath files path).2 (store'.readPath files path).2 := by
  unfold Store.readPath
  split
  · exact ⟨rfl, h⟩
  · split
    · exact ⟨rfl, h⟩
    · exact (h.note _ _).parse hr _ _

theorem Alike.fresh? (h : Alike r store store') (files : Files) (path : Path) :
    store.fresh? files path = store'.fresh? files path := by
  unfold Store.fresh?
  congr 1
  funext site
  rw [List.contains_eq_mem, List.contains_eq_mem]
  congr 1
  rw [decide_eq_decide]
  exact h.searched site

theorem Alike.mark (h : Alike r store store') (site : Site) :
    Alike r { store with searched := site :: store.searched } { store' with searched := site :: store'.searched } where
  searchPath := h.searchPath
  searched := by
    intro other
    rw [List.mem_cons, List.mem_cons, h.searched]
  modules := h.modules
  submodules := h.submodules

theorem Alike.load (h : Alike r store store') (hr : ∀ d, r d d) (files : Files) (name : String) :
    (store.load files name).1 = (store'.load files name).1
      ∧ Alike r (store.load files name).2 (store'.load files name).2 := by
  unfold Store.load
  rw [h.searchPath]
  split
  · exact ⟨rfl, h⟩
  · exact ⟨rfl, h⟩
  · next path _ =>
    unfold Store.loadPath
    rw [h.fresh? files path]
    split
    · exact ⟨rfl, h⟩
    · next site _ =>
      obtain ⟨hresult, hstores⟩ := ((h.mark site).note (.loading name path.text) (.loading name path.text)).readPath
        hr files path
      refine ⟨?_, hstores⟩
      dsimp only
      rw [hresult]

theorem Alike.find {α : Type} {get : Store → String → Option α} {p : α → α → Prop}
    (hget : ∀ {store store'}, Alike r store store' → ∀ name, Option.Rel p (get store name) (get store' name))
    (h : Alike r store store') (hr : ∀ d, r d d) (files : Files) (name : String) :
    ((∃ refusal, (Store.find get store files name).1 = .error refusal
        ∧ (Store.find get store' files name).1 = .error refusal)
      ∨ ∃ found found', (Store.find get store files name).1 = .ok found
        ∧ (Store.find get store' files name).1 = .ok found' ∧ Option.Rel p found found')
      ∧ Alike r (Store.find get store files name).2 (Store.find get store' files name).2 := by
  unfold Store.find
  have hnow := hget h name
  cases hfound : get store name with
  | some found =>
    rw [hfound] at hnow
    cases hfound' : get store' name with
    | none => rw [hfound'] at hnow; cases hnow
    | some found' =>
      rw [hfound'] at hnow
      exact ⟨.inr ⟨_, _, rfl, rfl, hnow⟩, h⟩
  | none =>
    rw [hfound] at hnow
    cases hfound' : get store' name with
    | some found' => rw [hfound'] at hnow; cases hnow
    | none =>
      obtain ⟨hresult, hstores⟩ := h.load hr files name
      refine ⟨?_, hstores⟩
      dsimp only
      rw [← hresult]
      cases (store.load files name).1 with
      | error refusal => exact .inl ⟨refusal, rfl, rfl⟩
      | ok _ => exact .inr ⟨_, _, rfl, rfl, hget hstores name⟩

theorem Alike.names_topLevel (h : Alike r store store') :
    store.topLevel.map Module.name = store'.topLevel.map Module.name := by
  apply Text.eq_of_pairwise_lt (pairwise_topLevel store) (pairwise_topLevel store')
  intro name
  rw [mem_names_topLevel_iff, mem_names_topLevel_iff, isSome_of_rel (h.modules name)]

end Store

end Yang

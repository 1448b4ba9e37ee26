import Yang.Store

/-!
This module contains the growth of stores: whatever is loaded, the records that were there stay in front, and what they
want is still wanted.
-/

namespace Yang

namespace Store

structure Extends (before after : Store) : Prop where
  searchPath : after.searchPath = before.searchPath
  modules : before.modules <+: after.modules
  submodules : before.submodules <+: after.submodules

theorem Extends.refl (store : Store) : Extends store store :=
  ⟨rfl, List.prefix_refl _, List.prefix_refl _⟩

theorem Extends.trans {a b c : Store} (hab : Extends a b) (hbc : Extends b c) : Extends a c :=
  ⟨hbc.searchPath.trans hab.searchPath, hab.modules.trans hbc.modules, hab.submodules.trans hbc.submodules⟩

theorem Extends.module? {before after : Store} (h : Extends before after) {name : String} {m : Module}
    (hm : before.module? name = some m) : after.module? name = some m := by
  obtain ⟨more, hmore⟩ := h.modules
  unfold Store.module? at hm ⊢
  rw [← hmore, List.find?_append, hm]
  rfl

theorem Extends.submodule? {before after : Store} (h : Extends before after) {name : String} {s : Submodule}
    (hs : before.submodule? name = some s) : after.submodule? name = some s := by
  obtain ⟨more, hmore⟩ := h.submodules
  unfold Store.submodule? at hs ⊢
  rw [← hmore, List.find?_append, hs]
  rfl

def Loaded (store : Store) : Document → Prop
  | .main m => m ∈ store.modules
  | .part s => s ∈ store.submodules

def Wanted (store : Store) (name : String) : Prop :=
  ∃ document, store.Loaded document
    ∧ (name ∈ document.body.includes ∨ ∃ i ∈ document.body.imports, i.moduleName = name)

theorem Extends.loaded {before after : Store} (h : Extends before after) {document : Document}
    (hd : before.Loaded document) : after.Loaded document := by
  cases document with
  | main m => exact h.modules.subset hd
  | part s => exact h.submodules.subset hd

theorem Extends.wanted {before after : Store} (h : Extends before after) {name : String}
    (hw : before.Wanted name) : after.Wanted name := by
  obtain ⟨document, hd, hname⟩ := hw
  exact ⟨document, h.loaded hd, hname⟩

theorem extends_add (store : Store) (document : Document) : Extends store (store.add document) := by
  unfold add
  cases document with
  | main m =>
    dsimp only
    split
    · exact ⟨rfl, List.prefix_append _ _, List.prefix_refl _⟩
    · exact ⟨rfl, List.prefix_append _ _, List.prefix_refl _⟩
  | part s => exact ⟨rfl, List.prefix_refl _, List.prefix_append _ _⟩

theorem extends_addAll (store : Store) (documents : List Document) :
    Extends store (store.addAll documents) := by
  induction documents generalizing store with
  | nil => exact Extends.refl _
  | cons document rest ih =>
    apply Extends.trans (extends_add store document)
    exact ih (store.add document)

theorem extends_parse (store : Store) (text source : String) :
    Extends store (store.parse text source).2 := by
  unfold parse
  split
  · apply extends_addAll
  · apply Extends.refl

theorem extends_readPath (store : Store) (files : Files) (path : Path) :
    Extends store (store.readPath files path).2 := by
  unfold readPath
  split
  · apply Extends.refl
  · split
    · apply Extends.refl
    · next text _ =>
      have h := extends_parse (store.note (.read path.text)) text path.text
      exact ⟨h.searchPath, h.modules, h.submodules⟩

theorem extends_load (store : Store) (files : Files) (name : String) :
    Extends store (store.load files name).2 := by
  unfold load
  split
  · apply Extends.refl
  · apply Extends.refl
  · next path _ =>
    unfold loadPath
    split
    · apply Extends.refl
    · next site _ =>
      have h := extends_readPath
        (({ store with searched := site :: store.searched } : Store).note (.loading name path.text)) files path
      exact ⟨h.searchPath, h.modules, h.submodules⟩

theorem extends_find {α : Type} (get : Store → String → Option α) (store : Store) (files : Files)
    (name : String) : Extends store (find get store files name).2 := by
  unfold find
  split
  · apply Extends.refl
  · apply extends_load

end Store

end Yang

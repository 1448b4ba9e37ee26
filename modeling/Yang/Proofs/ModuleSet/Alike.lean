import Yang.Proofs.Gather.Alike
import Yang.Proofs.ModuleSet.Process

/-!
This module contains sets whose stores look alike. When the records that are found by name are the same, processing has
the same result, whatever other records were loaded and in whatever order.
-/

namespace Yang

theorem likeness_eq : Likeness True (fun d d' => d = d') where
  refl := fun _ => rfl
  outline := fun h => by rw [h]
  typedefs := fun h => by rw [h]; exact ⟨.refl _, fun _ => rfl⟩
  groupings := fun h => by rw [h]; exact ⟨.refl _, fun _ => rfl⟩

theorem Context.Alike.eq {context context' : Context} (h : context.Alike (fun d d' => d = d') context') :
    context = context' := by
  obtain ⟨document, owner, prefixes⟩ := context
  obtain ⟨hdocument, howner, hprefixes⟩ := h
  dsimp only at hdocument howner hprefixes
  rw [hdocument, howner, hprefixes]

theorem Scope.Alike.eq {scope scope' : Scope} (h : scope.Alike (fun d d' => d = d') scope') : scope = scope' := by
  obtain ⟨main, contexts⟩ := scope
  obtain ⟨hmain, hcontexts⟩ := h
  dsimp only at hmain hcontexts
  have heq : contexts = scope'.contexts := by
    rw [← List.forall₂_eq_eq_eq]
    exact hcontexts.imp fun _ _ hc => hc.eq
  rw [Document.main.inj hmain, heq]

namespace Store

structure Corresponding (r : Document → Document → Prop) (store store' : Store) : Prop where
  searchPath : store.searchPath = store'.searchPath
  searched : store.searched = store'.searched
  modules : List.Forall₂ (fun m m' => r (.main m) (.main m')) store.modules store'.modules
  submodules : List.Forall₂ (fun s s' => r (.part s) (.part s')) store.submodules store'.submodules

theorem Corresponding.alike {exact : Prop} {r : Document → Document → Prop} (hl : Likeness exact r)
    {store store' : Store} (h : store.Corresponding r store') : store.Alike r store' where
  searchPath := h.searchPath
  searched := by
    intro site
    rw [h.searched]
  modules := by
    intro name
    apply rel_find? h.modules
    intro m m' hm
    rw [show m.name = m'.name from Document.name_eq (hl.outline hm)]
  submodules := by
    intro name
    apply rel_find? h.submodules
    intro s s' hs
    rw [show s.name = s'.name from Document.name_eq (hl.outline hs)]

/--
Whether the same records are found by name in two stores, and the same files were searched.
-/
structure Agrees (store store' : Store) : Prop where
  searchPath : store.searchPath = store'.searchPath
  searched : ∀ site, site ∈ store.searched ↔ site ∈ store'.searched
  modules : ∀ name, store.module? name = store'.module? name
  submodules : ∀ name, store.submodule? name = store'.submodule? name

variable {store store' store'' : Store}

theorem Agrees.refl (store : Store) : Agrees store store :=
  ⟨rfl, fun _ => Iff.rfl, fun _ => rfl, fun _ => rfl⟩

theorem Agrees.trans (h : Agrees store store') (h' : Agrees store' store'') : Agrees store store'' where
  searchPath := h.searchPath.trans h'.searchPath
  searched := fun site => (h.searched site).trans (h'.searched site)
  modules := fun name => (h.modules name).trans (h'.modules name)
  submodules := fun name => (h.submodules name).trans (h'.submodules name)

theorem agrees_iff_alike : Agrees store store' ↔ Alike (fun d d' => d = d') store store' := by
  constructor
  · intro h
    refine ⟨h.searchPath, h.searched, fun name => ?_, fun name => ?_⟩
    · rw [h.modules]
      apply rel_self
      exact fun _ => rfl
    · rw [h.submodules]
      apply rel_self
      exact fun _ => rfl
  · intro h
    refine ⟨h.searchPath, h.searched, fun name => ?_, fun name => ?_⟩
    · have hm := h.modules name
      generalize store.module? name = found at hm ⊢
      generalize store'.module? name = found' at hm ⊢
      cases hm with
      | none => rfl
      | some hm => rw [Document.main.inj hm]
    · have hs := h.submodules name
      generalize store.submodule? name = found at hs ⊢
      generalize store'.submodule? name = found' at hs ⊢
      cases hs with
      | none => rfl
      | some hs => rw [Document.part.inj hs]

theorem Agrees.topLevel_eq (h : Agrees store store') : store.topLevel = store'.topLevel := by
  have hnames := (agrees_iff_alike.1 h).names_topLevel
  rw [names_topLevel, names_topLevel] at hnames
  unfold topLevel
  rw [hnames]
  congr 1
  exact funext h.modules

theorem Agrees.add (h : Agrees store store') (document : Document) :
    Agrees (store.add document) (store'.add document) :=
  agrees_iff_alike.2 ((agrees_iff_alike.1 h).add (fun _ => rfl) document)

theorem Agrees.addAll (h : Agrees store store') (documents : List Document) :
    Agrees (store.addAll documents) (store'.addAll documents) :=
  agrees_iff_alike.2 ((agrees_iff_alike.1 h).addAll (fun _ => rfl) documents)

theorem agrees_add_shadowed {m : Module} (h : (store.module? m.name).isSome = true) :
    Agrees (store.add (.main m)) store where
  searchPath := (extends_add store (.main m)).searchPath
  searched := by
    intro site
    rw [searched_add]
  modules := by
    intro name
    rw [module?_add_main]
    cases hfound : store.module? name with
    | some first => rfl
    | none =>
      have hne : m.name ≠ name := by
        rintro rfl
        rw [hfound] at h
        cases h
      rw [Option.none_or]
      simp [hne]
  submodules := by
    intro name
    rw [submodule?_add_main]

def Apart (d d' : Document) : Prop :=
  d.word = d'.word → d.name ≠ d'.name

theorem or_find?_comm {α : Type} (o : Option α) {p : α → Bool} {a b : α} (h : p a = true → p b = false) :
    (o.or ([a].find? p)).or ([b].find? p) = (o.or ([b].find? p)).or ([a].find? p) := by
  cases o with
  | some _ => rfl
  | none =>
    cases ha : p a with
    | false => simp [ha]
    | true => simp [ha, h ha]

theorem agrees_add_add (store : Store) {d d' : Document} (h : Apart d d') :
    Agrees ((store.add d).add d') ((store.add d').add d) where
  searchPath := by
    rw [(extends_add _ _).searchPath, (extends_add _ _).searchPath, (extends_add _ _).searchPath,
      (extends_add _ _).searchPath]
  searched := by
    intro site
    rw [searched_add, searched_add, searched_add, searched_add]
  modules := by
    intro name
    cases d with
    | part s =>
      cases d' with
      | part s' => rw [module?_add_part, module?_add_part, module?_add_part, module?_add_part]
      | main m => rw [module?_add_main, module?_add_part, module?_add_part, module?_add_main]
    | main m =>
      cases d' with
      | part s => rw [module?_add_part, module?_add_main, module?_add_main, module?_add_part]
      | main m' =>
        rw [module?_add_main, module?_add_main, module?_add_main, module?_add_main]
        apply or_find?_comm
        intro hm
        rw [beq_iff_eq] at hm
        rw [beq_eq_false_iff_ne, ← hm]
        exact (h rfl).symm
  submodules := by
    intro name
    cases d with
    | main m =>
      cases d' with
      | main m' => rw [submodule?_add_main, submodule?_add_main, submodule?_add_main, submodule?_add_main]
      | part s => rw [submodule?_add_part, submodule?_add_main, submodule?_add_main, submodule?_add_part]
    | part s =>
      cases d' with
      | main m => rw [submodule?_add_main, submodule?_add_part, submodule?_add_part, submodule?_add_main]
      | part s' =>
        rw [submodule?_add_part, submodule?_add_part, submodule?_add_part, submodule?_add_part]
        apply or_find?_comm
        intro hs
        rw [beq_iff_eq] at hs
        rw [beq_eq_false_iff_ne, ← hs]
        exact (h rfl).symm

theorem Apart.symm {d d' : Document} (h : Apart d d') : Apart d' d :=
  fun hword hname => h hword.symm hname.symm

theorem Agrees.addAll_perm (h : Agrees store store') {documents documents' : List Document}
    (hperm : documents.Perm documents') (hapart : documents.Pairwise Apart) :
    Agrees (store.addAll documents) (store'.addAll documents') := by
  induction hperm generalizing store store' with
  | nil => exact h
  | cons d _ ih => exact ih (h.add d) (List.pairwise_cons.1 hapart).2
  | swap d d' rest =>
    -- neither of the two stands before the other one under its name
    have hfirst := (List.pairwise_cons.1 hapart).1 d List.mem_cons_self
    have hboth := ((h.add d').add d).trans (agrees_add_add store' hfirst)
    exact hboth.addAll rest
  | trans hperm _ ih ih' =>
    have hmiddle := (hperm.pairwise_iff Apart.symm).1 hapart
    exact (ih h hapart).trans (ih' (Agrees.refl store') hmiddle)

end Store

namespace ModuleSet

theorem gather_alike {exact : Prop} {r : Document → Document → Prop} (hl : Likeness exact r) {store store' : Store}
    (h : store.Alike r store') (files : Files) :
    List.Forall₂ (Scope.Alike r) (gather store files).1 (gather store' files).1
      ∧ Gathering.Alike exact r (gather store files).2 (gather store' files).2 := by
  have hbegin : Gathering.Alike exact r ⟨store, [], none⟩ ⟨store', [], none⟩ := ⟨h, Same.refl exact [], rfl⟩
  have hrun := Gathering.runs_all files [] [] ⟨store, [], none⟩
  obtain ⟨final', after', hrun', hfinal, hafter⟩ := hrun.alike hl hbegin .nil
  unfold gather
  rw [hrun'.all_eq]
  refine ⟨?_, hafter⟩
  apply forall₂_mergeSort hfinal
  intro a b a' b' ha hb
  rw [show a.main.name = a'.main.name from Document.name_eq (hl.outline ha.main)]
  rw [show b.main.name = b'.main.name from Document.name_eq (hl.outline hb.main)]

/--
Whether processing two sets has the same result, and whether they are the same from outside afterwards.
-/
structure ProcessSame (files : Files) (set set' : ModuleSet) : Prop where
  result : (set.process files).1 = (set'.process files).1
  topLevel : (set.process files).2.store.topLevel = (set'.process files).2.store.topLevel
  entries : ∀ name, (set.process files).2.toEntry name = (set'.process files).2.toEntry name

theorem processSame_of_agrees {store store' : Store} (h : store.Agrees store') (files : Files) :
    ProcessSame files ⟨store, none⟩ ⟨store', none⟩ := by
  obtain ⟨hscopes, hg⟩ := gather_alike likeness_eq (Store.agrees_iff_alike.1 h) files
  have hsame : (gather store files).1 = (gather store' files).1 := by
    rw [← List.forall₂_eq_eq_eq]
    exact hscopes.imp fun _ _ hs => hs.eq
  have hproblems := hg.problems.eq trivial
  have htop := (Store.agrees_iff_alike.2 hg.store).topLevel_eq
  constructor <;> rw [process_open, process_open, hsame, hproblems, hg.breakdown]
  · split <;> rfl
  · split <;> exact htop
  · intro name
    split <;> rfl

/--
Only the first records of names matter when a set is processed, not the order in which records were loaded, nor the
records behind the first ones.
-/
theorem process_of_agrees {store store' : Store} (h : store.Agrees store') (files : Files) :
    ProcessSame files ⟨store, none⟩ ⟨store', none⟩
      ∧ ∀ documents documents' : List Document, documents.Perm documents' → documents.Pairwise Store.Apart →
        ProcessSame files ⟨store.addAll documents, none⟩ ⟨store'.addAll documents', none⟩ := by
  constructor
  · exact processSame_of_agrees h files
  · intro documents documents' hperm hapart
    exact processSame_of_agrees (h.addAll_perm hperm hapart) files

def sampleShadow : Module :=
  { sampleModule with uri := "v" }

def sampleUser : Module :=
  ⟨"n", "w", ⟨"q", none, none, none, none, [⟨"m", "p"⟩], [], [], [], [],
    [⟨"/p:c", none, [.leaf ⟨.free, "b", "string", none, none, false, none, none⟩]⟩], "n.yaml"⟩⟩

theorem process_of_agrees_sample :
    (sample.store.add (.main sampleShadow)).Agrees sample.store
      ∧ [Document.main sampleUser, .main sampleShadow].Pairwise Store.Apart
      ∧ ProcessSame .empty ⟨sample.store.add (.main sampleShadow), none⟩ sample
      ∧ ProcessSame .empty
        ⟨(sample.store.add (.main sampleShadow)).addAll [.main sampleUser, .main sampleShadow], none⟩
        ⟨sample.store.addAll [.main sampleShadow, .main sampleUser], none⟩ := by
  have hagrees : (sample.store.add (.main sampleShadow)).Agrees sample.store := by
    apply Store.agrees_add_shadowed
    rfl
  have hapart : [Document.main sampleUser, .main sampleShadow].Pairwise Store.Apart := by
    simp [Store.Apart, Document.word, Document.name, sampleUser, sampleShadow, sampleModule, plainModule]
  refine ⟨hagrees, hapart, ?_⟩
  have h := process_of_agrees hagrees .empty
  exact ⟨h.1, h.2 _ _ (.swap _ _ _) hapart⟩

end ModuleSet

end Yang

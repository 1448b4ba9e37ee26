import Yang.Proofs.Gather.Closed
import Yang.Proofs.Gather.Loads
import Yang.Proofs.Store.Alike
import Yang.Proofs.Store.Receives

/-!
This module contains gatherings in stores that differ in what is foreign to one of them: further modules, submodules and
files, for which nothing that it has to do with asks. What such a gathering does has the same effect in both stores: the
same problems are reported, the same documents are loaded, and the same files are searched.
-/

namespace Yang

structure Foreign where
  modules : String → Bool
  submodules : String → Bool
  sites : Site → Bool

namespace Foreign

def owns (f : Foreign) : Document → Bool
  | .main m => f.modules m.name
  | .part s => f.submodules s.name

structure Ignores (f : Foreign) (document : Document) : Prop where
  includes : ∀ name ∈ document.body.includes, f.submodules name = false
  imports : ∀ i ∈ document.body.imports, f.modules i.moduleName = false

end Foreign

structure Effect where
  problems : List Diagnostic
  documents : List Document
  sites : List Site

namespace Effect

def none : Effect :=
  ⟨[], [], []⟩

def problem (d : Diagnostic) : Effect :=
  ⟨[d], [], []⟩

def append (e e' : Effect) : Effect :=
  ⟨e.problems ++ e'.problems, e.documents ++ e'.documents, e.sites ++ e'.sites⟩

end Effect

namespace Store

structure Matches (f : Foreign) (a b : Store) : Prop where
  searchPath : a.searchPath = b.searchPath
  modules : ∀ name, f.modules name = false → a.module? name = b.module? name
  submodules : ∀ name, f.submodules name = false → a.submodule? name = b.submodule? name
  searched : ∀ site, f.sites site = false → (site ∈ a.searched ↔ site ∈ b.searched)

structure Takes (before : Store) (e : Effect) (after : Store) : Prop where
  searchPath : after.searchPath = before.searchPath
  modules : after.modules = before.modules ++ e.documents.filterMap Document.main?
  submodules : after.submodules = before.submodules ++ e.documents.filterMap Document.part?
  searched : ∀ site, site ∈ after.searched ↔ site ∈ e.sites ∨ site ∈ before.searched

theorem Takes.refl (store : Store) (problems : List Diagnostic) : Takes store ⟨problems, [], []⟩ store where
  searchPath := rfl
  modules := (List.append_nil _).symm
  submodules := (List.append_nil _).symm
  searched := by simp

theorem Takes.note (store : Store) (n : Note) : Takes store .none (store.note n) where
  searchPath := rfl
  modules := (List.append_nil _).symm
  submodules := (List.append_nil _).symm
  searched := by simp [Effect.none, Store.note]

theorem Takes.trans {a b c : Store} {e e' : Effect} (hab : Takes a e b) (hbc : Takes b e' c) :
    Takes a (e.append e') c where
  searchPath := hbc.searchPath.trans hab.searchPath
  modules := by
    unfold Effect.append
    rw [hbc.modules, hab.modules, List.filterMap_append, List.append_assoc]
  submodules := by
    unfold Effect.append
    rw [hbc.submodules, hab.submodules, List.filterMap_append, List.append_assoc]
  searched := by
    intro site
    unfold Effect.append
    rw [hbc.searched, hab.searched, List.mem_append]
    tauto

theorem Takes.module? {before after : Store} {e : Effect} (h : Takes before e after) (name : String) :
    after.module? name
      = (before.module? name).or ((e.documents.filterMap Document.main?).find? (fun m => m.name == name)) := by
  unfold Store.module?
  rw [h.modules, List.find?_append]

theorem Takes.submodule? {before after : Store} {e : Effect} (h : Takes before e after) (name : String) :
    after.submodule? name
      = (before.submodule? name).or ((e.documents.filterMap Document.part?).find? (fun s => s.name == name)) := by
  unfold Store.submodule?
  rw [h.submodules, List.find?_append]

theorem Matches.takes {f : Foreign} {a b a' b' : Store} (h : Matches f a b) {e : Effect} (ha : Takes a e a')
    (hb : Takes b e b') : Matches f a' b' where
  searchPath := by rw [ha.searchPath, hb.searchPath, h.searchPath]
  modules := fun name hname => by rw [ha.module?, hb.module?, h.modules name hname]
  submodules := fun name hname => by rw [ha.submodule?, hb.submodule?, h.submodules name hname]
  searched := fun site hsite => by rw [ha.searched, hb.searched, h.searched site hsite]

theorem Takes.loaded {before after : Store} {e : Effect} (h : Takes before e after) {document : Document}
    (hd : document ∈ e.documents) : after.Loaded document := by
  cases document with
  | main m =>
    change m ∈ after.modules
    rw [h.modules, List.mem_append, List.mem_filterMap]
    exact .inr ⟨_, hd, rfl⟩
  | part s =>
    change s ∈ after.submodules
    rw [h.submodules, List.mem_append, List.mem_filterMap]
    exact .inr ⟨_, hd, rfl⟩

theorem Matches.apart {f : Foreign} {a b b' : Store} (h : Matches f a b) {e : Effect} (hb : Takes b e b')
    (hdocuments : ∀ d ∈ e.documents, f.owns d = true) (hsites : ∀ site ∈ e.sites, f.sites site = true) :
    Matches f a b' where
  searchPath := h.searchPath.trans hb.searchPath.symm
  modules := by
    intro name hname
    have hnone : (e.documents.filterMap Document.main?).find? (fun m => m.name == name) = none := by
      rw [List.find?_eq_none]
      intro m hm heq
      obtain ⟨d, hd, hmain⟩ := List.mem_filterMap.1 hm
      have howned := hdocuments d hd
      cases d with
      | part s => cases hmain
      | main m' =>
        cases hmain
        rw [← beq_iff_eq.1 heq] at hname
        exact absurd (howned.symm.trans hname) nofun
    rw [hb.module?, hnone, Option.or_none, h.modules name hname]
  submodules := by
    intro name hname
    have hnone : (e.documents.filterMap Document.part?).find? (fun s => s.name == name) = none := by
      rw [List.find?_eq_none]
      intro s hs heq
      obtain ⟨d, hd, hpart⟩ := List.mem_filterMap.1 hs
      have howned := hdocuments d hd
      cases d with
      | main m => cases hpart
      | part s' =>
        cases hpart
        rw [← beq_iff_eq.1 heq] at hname
        exact absurd (howned.symm.trans hname) nofun
    rw [hb.submodule?, hnone, Option.or_none, h.submodules name hname]
  searched := by
    intro site hsite
    rw [hb.searched, or_iff_right, h.searched site hsite]
    intro hin
    rw [hsites site hin] at hsite
    cases hsite

theorem Matches.symm {f : Foreign} {a b : Store} (h : Matches f a b) : Matches f b a where
  searchPath := h.searchPath.symm
  modules := fun name hname => (h.modules name hname).symm
  submodules := fun name hname => (h.submodules name hname).symm
  searched := fun site hsite => (h.searched site hsite).symm

theorem searched_find {α : Type} {get : Store → String → Option α} {store : Store} (files : Files) {name : String}
    (hw : store.Wanted name) : store.searched ⊆ (find get store files name).2.searched := by
  obtain ⟨loads, hloads, _⟩ := loads_find get files hw
  rw [hloads.searched]
  exact List.subset_append_right _ _

section

variable {f : Foreign} {a b : Store} {files : Files} {name : String}

theorem Matches.fresh? (h : Matches f a b) {path : Path}
    (hsites : ∀ site, files.file? path = some site → f.sites site = false) :
    a.fresh? files path = b.fresh? files path := by
  unfold Store.fresh?
  cases hfile : files.file? path with
  | none => rfl
  | some site =>
    rw [Option.filter_some, Option.filter_some, List.contains_eq_mem, List.contains_eq_mem]
    rw [decide_eq_decide.2 (h.searched site (hsites site hfile))]

theorem takes_readPath {site : Site} {n : Note} (path : Path) :
    Takes a ⟨(problem? ((a.readPath files path).1)).toList, gained (a.readPath files path).1, [site]⟩
      ((({ a with searched := site :: a.searched } : Store).note n).readPath files path).2 := by
  obtain ⟨hsame, hreceives⟩ :=
    readPath_spec (({ a with searched := site :: a.searched } : Store).note n) a files path
  rw [hsame] at hreceives
  constructor
  · exact hreceives.searchPath
  · exact hreceives.modules
  · exact hreceives.submodules
  · intro other
    rw [hreceives.searched, List.mem_singleton]
    exact List.mem_cons

theorem loadPath_matches (h : Matches f a b) {path : Path}
    (hsites : ∀ site ∈ (a.loadPath files name path).2.searched, f.sites site = false) :
    ∃ e, Takes a e (a.loadPath files name path).2 ∧ Takes b e (b.loadPath files name path).2
      ∧ (b.loadPath files name path).1 = (a.loadPath files name path).1
      ∧ e.problems = (problem? (a.loadPath files name path).1).toList := by
  have hfresh : a.fresh? files path = b.fresh? files path := by
    apply h.fresh?
    intro site hfile
    apply hsites
    -- the file was searched before, or it is searched now
    unfold loadPath
    split
    · next hnone =>
      unfold Store.fresh? at hnone
      rw [hfile, Option.filter_some] at hnone
      simpa using hnone
    · next other hother =>
      unfold Store.fresh? at hother
      obtain ⟨hsame, _⟩ := Option.filter_eq_some_iff.1 hother
      rw [hfile] at hsame
      cases hsame
      dsimp only
      rw [searched_readPath]
      exact List.mem_cons_self
  unfold loadPath
  rw [← hfresh]
  split
  · exact ⟨.none, .refl _ _, .refl _ _, rfl, rfl⟩
  · next site _ =>
    have hb := (readPath_spec (({ b with searched := site :: b.searched } : Store).note (.loading name path.text)) a
      files path).1
    have ha := (readPath_spec (({ a with searched := site :: a.searched } : Store).note (.loading name path.text)) a
      files path).1
    have hsame := (readPath_spec b a files path).1
    have htakes := @takes_readPath b files site (.loading name path.text) path
    rw [hsame] at htakes
    refine ⟨_, takes_readPath path, htakes, ?_, ?_⟩
    · dsimp only
      rw [ha, hb]
    · dsimp only
      rw [ha]
      cases (a.readPath files path).1 with
      | ok documents => rfl
      | error refusal => cases refusal <;> rfl

theorem find_matches {α : Type} {get : Store → String → Option α} (h : Matches f a b)
    (hget : ∀ {s s'}, Matches f s s' → get s name = get s' name)
    (hsites : ∀ site ∈ (find get a files name).2.searched, f.sites site = false) :
    ∃ e, Takes a e (find get a files name).2 ∧ Takes b e (find get b files name).2
      ∧ (find get b files name).1 = (find get a files name).1
      ∧ e.problems = (problem? (find get a files name).1).toList := by
  have hnow := hget h
  unfold find at hsites ⊢
  rw [← hnow]
  cases hfound : get a name with
  | some found => exact ⟨.none, .refl _ _, .refl _ _, rfl, rfl⟩
  | none =>
    rw [hfound] at hsites
    dsimp only at hsites ⊢
    have hload : ∃ e, Takes a e (a.load files name).2 ∧ Takes b e (b.load files name).2
        ∧ (b.load files name).1 = (a.load files name).1
        ∧ e.problems = (problem? (a.load files name).1).toList := by
      unfold load at hsites ⊢
      rw [← h.searchPath]
      split at hsites
      · exact ⟨.none, .refl _ _, .refl _ _, rfl, rfl⟩
      · exact ⟨.none, .refl _ _, .refl _ _, rfl, rfl⟩
      · exact loadPath_matches h hsites
    obtain ⟨e, ha, hb, houtcome, hproblems⟩ := hload
    refine ⟨e, ha, hb, ?_, ?_⟩
    · rw [houtcome, hget (h.takes ha hb)]
    · rw [hproblems]
      cases (a.load files name).1 with
      | ok _ => rfl
      | error refusal => cases refusal <;> rfl

end

end Store

namespace Gathering

structure Gains (g : Gathering) (e : Effect) (g' : Gathering) : Prop where
  store : g.store.Takes e g'.store
  problems : g'.problems = g.problems ++ e.problems
  breakdown : g'.breakdown = none

structure Beside (f : Foreign) (a b : Gathering) : Prop where
  store : a.store.Matches f b.store
  breakdown : a.breakdown = none
  breakdown' : b.breakdown = none

structure Minds (f : Foreign) (g : Gathering) : Prop where
  ignores : ∀ d, g.store.Loaded d → f.owns d = false → f.Ignores d
  sites : ∀ site ∈ g.store.searched, f.sites site = false
  breakdown : g.breakdown = none

variable {f : Foreign} {a b c a' b' g g' : Gathering} {e e' : Effect} {files : Files}

theorem Gains.refl (h : g.breakdown = none) : Gains g .none g :=
  ⟨.refl _ _, (List.append_nil _).symm, h⟩

theorem Gains.trans (hab : Gains a e b) (hbc : Gains b e' c) : Gains a (e.append e') c where
  store := hab.store.trans hbc.store
  problems := by
    unfold Effect.append
    rw [hbc.problems, hab.problems, List.append_assoc]
  breakdown := hbc.breakdown

theorem Gains.report (h : g.breakdown = none) (d : Diagnostic) : Gains g (.problem d) (g.report d) :=
  ⟨.refl _ _, rfl, h⟩

theorem Beside.gains (h : Beside f a b) (ha : Gains a e a') (hb : Gains b e b') : Beside f a' b' :=
  ⟨h.store.takes ha.store hb.store, ha.breakdown, hb.breakdown⟩

theorem Step.searched (h : Step files g g') : g.store.searched ⊆ g'.store.searched := by
  cases h with
  | report d => exact List.Subset.refl _
  | note name n =>
    unfold Gathering.note
    split
    · exact List.Subset.refl _
    · exact List.Subset.refl _
  | @look _ get _ name hw =>
    rcases look_store_or get files name g with h | h
    · rw [h]
      exact List.Subset.refl _
    · rw [h]
      exact Store.searched_find files hw

theorem Step.breakdown (h : Step files g g') (hnone : g'.breakdown = none) : g.breakdown = none := by
  cases h with
  | report d => exact hnone
  | note name n =>
    unfold Gathering.note at hnone
    split at hnone
    · exact hnone
    · exact hnone
  | look => exact running_of_look hnone

theorem Steps.searched (h : Steps files g g') : g.store.searched ⊆ g'.store.searched :=
  Steps.lift (p := fun g' => g.store.searched ⊆ g'.store.searched) (fun hstep hg => List.Subset.trans hg hstep.searched) h
    (List.Subset.refl _)

theorem Steps.minds (h : Steps files g g') (hminds : Minds f g') : Minds f g := by
  induction h with
  | refl => exact hminds
  | tail _ hstep ih =>
    apply ih
    exact ⟨fun d hd => hminds.ignores d (hstep.extends.loaded hd), fun site hsite =>
      hminds.sites site (hstep.searched hsite), hstep.breakdown hminds.breakdown⟩

theorem beside_look {α : Type} {get : Store → String → Option α} {name : String} (h : Beside f a b)
    (hget : ∀ {s s'}, Store.Matches f s s' → get s name = get s' name)
    (hminds : Minds f (a.look (Store.find get) files name).2) :
    ∃ e, Gains a e (a.look (Store.find get) files name).2 ∧ Gains b e (b.look (Store.find get) files name).2
      ∧ (b.look (Store.find get) files name).1 = (a.look (Store.find get) files name).1 := by
  have hsites := hminds.sites
  have hrunning := hminds.breakdown
  unfold look at hsites hrunning ⊢
  rw [h.breakdown, Option.isSome_none, if_neg Bool.false_ne_true] at hsites hrunning
  rw [h.breakdown, h.breakdown', Option.isSome_none, if_neg Bool.false_ne_true, if_neg Bool.false_ne_true]
  have hfind := @Store.find_matches f a.store b.store files name α get h.store hget
  generalize Store.find get a.store files name = found at hsites hrunning hfind
  generalize Store.find get b.store files name = found' at hfind
  obtain ⟨outcome, store⟩ := found
  obtain ⟨outcome', store'⟩ := found'
  cases outcome with
  | ok _ =>
    obtain ⟨e, ha, hb, houtcome, hproblems⟩ := hfind hsites
    cases houtcome
    refine ⟨e, ⟨ha, ?_, rfl⟩, ⟨hb, ?_, rfl⟩, rfl⟩
    · rw [hproblems]
      exact (List.append_nil _).symm
    · rw [hproblems]
      exact (List.append_nil _).symm
  | error refusal =>
    cases refusal with
    | problem d =>
      obtain ⟨e, ha, hb, houtcome, hproblems⟩ := hfind hsites
      cases houtcome
      refine ⟨e, ⟨ha, ?_, rfl⟩, ⟨hb, ?_, rfl⟩, rfl⟩
      · rw [hproblems]
        rfl
      · rw [hproblems]
        rfl
    | breakdown cause => cases hrunning

theorem beside_findSubmodule {name : String} (h : Beside f a b) (hname : f.submodules name = false)
    (hminds : Minds f (a.look Store.findSubmodule files name).2) :
    ∃ e, Gains a e (a.look Store.findSubmodule files name).2 ∧ Gains b e (b.look Store.findSubmodule files name).2
      ∧ (b.look Store.findSubmodule files name).1 = (a.look Store.findSubmodule files name).1 :=
  beside_look h (fun hs => hs.submodules name hname) hminds

theorem beside_findModule {name : String} (h : Beside f a b) (hname : f.modules name = false)
    (hminds : Minds f (a.look Store.findModule files name).2) :
    ∃ e, Gains a e (a.look Store.findModule files name).2 ∧ Gains b e (b.look Store.findModule files name).2
      ∧ (b.look Store.findModule files name).1 = (a.look Store.findModule files name).1 :=
  beside_look h (fun hs => hs.modules name hname) hminds

theorem beside_mention (h : Beside f a b) {owner : String} {document : Document} (mentioned : List String)
    {names : List String} (hw : ∀ name ∈ names, a.store.Wanted name)
    (hnames : ∀ name ∈ names, f.submodules name = false)
    (hminds : Minds f (mention files owner document mentioned a names).2.2) :
    (∃ e, Gains a e (mention files owner document mentioned a names).2.2
        ∧ Gains b e (mention files owner document mentioned b names).2.2)
      ∧ (mention files owner document mentioned b names).1 = (mention files owner document mentioned a names).1
      ∧ (mention files owner document mentioned b names).2.1 = (mention files owner document mentioned a names).2.1
      ∧ ∀ d ∈ (mention files owner document mentioned a names).1, f.owns d = false := by
  induction names generalizing mentioned a b with
  | nil => exact ⟨⟨.none, .refl h.breakdown, .refl h.breakdown'⟩, rfl, rfl, List.forall_mem_nil _⟩
  | cons name rest ih =>
    rw [List.forall_mem_cons] at hw hnames
    unfold mention at hminds ⊢
    split
    · next hin =>
      rw [if_pos hin] at hminds
      exact ih h mentioned hw.2 hnames.2 hminds
    · next hnot =>
      rw [if_neg hnot] at hminds
      have hlook : Steps files a (a.look Store.findSubmodule files name).2 := .single (.look _ a hw.1)
      have hget := @submodule?_of_look files name a
      have hbeside := @beside_findSubmodule f a b files name h hnames.1
      generalize a.look Store.findSubmodule files name = looked at hlook hget hbeside hminds ⊢
      generalize b.look Store.findSubmodule files name = looked' at hbeside ⊢
      obtain ⟨found, a'⟩ := looked
      obtain ⟨found', b'⟩ := looked'
      dsimp only at hlook hget hbeside hminds ⊢
      have hrest : ∀ other ∈ rest, a'.store.Wanted other :=
        fun other hother => hlook.extends.wanted (hw.2 other hother)
      -- a problem is reported on both sides, and both turn to the names that are left
      have hreport : ∀ d, Minds f (mention files owner document (name :: mentioned) (a'.report d) rest).2.2 →
          ∃ e, Gains a e (a'.report d) ∧ Gains b e (b'.report d) ∧ found' = found := by
        intro d hd
        obtain ⟨e, ha, hb, hfound⟩ := hbeside
          (Steps.minds ((steps_report files a' d).trans
            (@steps_mention files owner document (name :: mentioned) (a'.report d) rest hrest).1) hd)
        exact ⟨_, ha.trans (.report ha.breakdown d), hb.trans (.report hb.breakdown d), hfound⟩
      cases found with
      | none =>
        obtain ⟨e, ha, hb, rfl⟩ := hreport _ hminds
        obtain ⟨⟨e', ha', hb'⟩, hmore⟩ := ih (h.gains ha hb) (name :: mentioned) hrest hnames.2 hminds
        exact ⟨⟨_, ha.trans ha', hb.trans hb'⟩, hmore⟩
      | some s =>
        dsimp only at hminds ⊢
        split
        · next howner =>
          rw [if_pos howner] at hminds
          obtain ⟨e, ha, hb, rfl⟩ := hbeside ((steps_mention files owner document _ hrest).1.minds hminds)
          obtain ⟨⟨e', ha', hb'⟩, hdocuments, hmentioned, howned⟩ :=
            ih (h.gains ha hb) (name :: mentioned) hrest hnames.2 hminds
          dsimp only
          rw [if_pos howner]
          refine ⟨⟨_, ha.trans ha', hb.trans hb'⟩, ?_, hmentioned, ?_⟩
          · dsimp only
            rw [hdocuments]
          · rw [List.forall_mem_cons]
            refine ⟨?_, howned⟩
            have hname : s.name = name := by simpa using List.find?_some (hget rfl)
            change f.submodules s.name = false
            rw [hname]
            exact hnames.1
        · next howner =>
          rw [if_neg howner] at hminds
          obtain ⟨e, ha, hb, rfl⟩ := hreport _ hminds
          obtain ⟨⟨e', ha', hb'⟩, hmore⟩ := ih (h.gains ha hb) (name :: mentioned) hrest hnames.2 hminds
          dsimp only
          rw [if_neg howner]
          exact ⟨⟨_, ha.trans ha', hb.trans hb'⟩, hmore⟩

theorem beside_closure (h : Beside f a b) (owner : String) (mentioned : List String) {queue : List Document}
    (hq : ∀ d ∈ queue, a.store.Loaded d) (howned : ∀ d ∈ queue, f.owns d = false)
    (hminds : Minds f (closure files owner mentioned a queue).2) :
    (∃ e, Gains a e (closure files owner mentioned a queue).2 ∧ Gains b e (closure files owner mentioned b queue).2)
      ∧ (closure files owner mentioned b queue).1 = (closure files owner mentioned a queue).1
      ∧ ∀ d ∈ (closure files owner mentioned a queue).1, f.owns d = false := by
  fun_induction closure files owner mentioned a queue generalizing b with
  | case1 mentioned a =>
    rw [closure]
    exact ⟨⟨.none, .refl h.breakdown, .refl h.breakdown'⟩, rfl, List.forall_mem_nil _⟩
  | case2 mentioned a document rest r more a' heq =>
    rename_i ih
    rw [List.forall_mem_cons] at hq howned
    have hw : ∀ name ∈ document.body.includes, a.store.Wanted name :=
      fun name hname => ⟨document, hq.1, .inl hname⟩
    obtain ⟨hsteps, hparts⟩ := steps_mention files owner document mentioned hw
    have hqueue : ∀ d ∈ rest ++ r.1, r.2.2.store.Loaded d := by
      intro d hd
      rcases List.mem_append.1 hd with hd | hd
      · exact hsteps.extends.loaded (hq.2 d hd)
      · exact hparts d hd
    obtain ⟨hmore, _⟩ := steps_closure files owner r.2.1 r.2.2 (rest ++ r.1) hqueue
    rw [heq] at hmore ih
    have hbefore : Minds f r.2.2 := Steps.minds hmore hminds
    have hignores : f.Ignores document :=
      hbefore.ignores document (hsteps.extends.loaded hq.1) howned.1
    obtain ⟨⟨e, ha, hb⟩, hdocuments, hmentioned, hnew⟩ :=
      beside_mention h mentioned hw hignores.includes hbefore
    have hall : ∀ d ∈ rest ++ r.1, f.owns d = false := by
      intro d hd
      rcases List.mem_append.1 hd with hd | hd
      · exact howned.2 d hd
      · exact hnew d hd
    rw [closure]
    dsimp only
    rw [hdocuments, hmentioned]
    obtain ⟨⟨e', ha', hb'⟩, hsame, hfinal⟩ := ih (h.gains ha hb) hqueue hall hminds
    refine ⟨⟨_, ha.trans ha', hb.trans hb'⟩, ?_, ?_⟩
    · rw [hsame]
    · rw [List.forall_mem_cons]
      exact ⟨howned.1, hfinal⟩

theorem beside_bindImports (h : Beside f a b) {known known' : List String}
    (hknown : ∀ name, f.modules name = false → (name ∈ known ↔ name ∈ known')) (context : Context)
    {imports : List Import} (hw : ∀ i ∈ imports, a.store.Wanted i.moduleName)
    (hnames : ∀ i ∈ imports, f.modules i.moduleName = false)
    (hminds : Minds f (bindImports files known context a imports).2.2) :
    (∃ e, Gains a e (bindImports files known context a imports).2.2
        ∧ Gains b e (bindImports files known' context b imports).2.2)
      ∧ (bindImports files known' context b imports).1 = (bindImports files known context a imports).1
      ∧ (bindImports files known' context b imports).2.1 = (bindImports files known context a imports).2.1 := by
  induction imports generalizing context a b with
  | nil => exact ⟨⟨.none, .refl h.breakdown, .refl h.breakdown'⟩, rfl, rfl⟩
  | cons i rest ih =>
    rw [List.forall_mem_cons] at hw hnames
    have hreport : ∀ d, Minds f (bindImports files known context (a.report d) rest).2.2 →
        (∃ e, Gains a e (bindImports files known context (a.report d) rest).2.2
          ∧ Gains b e (bindImports files known' context (b.report d) rest).2.2)
        ∧ (bindImports files known' context (b.report d) rest).1
          = (bindImports files known context (a.report d) rest).1
        ∧ (bindImports files known' context (b.report d) rest).2.1
          = (bindImports files known context (a.report d) rest).2.1 := by
      intro d hd
      have ha : Gains a (.problem d) (a.report d) := .report h.breakdown d
      have hb : Gains b (.problem d) (b.report d) := .report h.breakdown' d
      obtain ⟨⟨e, ha', hb'⟩, hsame⟩ := ih (h.gains ha hb) context hw.2 hnames.2 hd
      exact ⟨⟨_, ha.trans ha', hb.trans hb'⟩, hsame⟩
    unfold bindImports at hminds ⊢
    split
    · next hin =>
      rw [if_pos hin] at hminds
      exact hreport _ hminds
    · next hnot =>
      rw [if_neg hnot] at hminds
      split
      · next hin =>
        rw [if_pos hin] at hminds
        exact hreport _ hminds
      · next hfree =>
        rw [if_neg hfree] at hminds
        have hlook : Steps files a (a.look Store.findModule files i.moduleName).2 := .single (.look _ a hw.1)
        have hbeside := @beside_findModule f a b files i.moduleName h hnames.1
        generalize a.look Store.findModule files i.moduleName = looked at hlook hbeside hminds ⊢
        generalize b.look Store.findModule files i.moduleName = looked' at hbeside ⊢
        obtain ⟨found, a'⟩ := looked
        obtain ⟨found', b'⟩ := looked'
        dsimp only at hlook hbeside hminds ⊢
        have hrest : ∀ other ∈ rest, a'.store.Wanted other.moduleName :=
          fun other hother => hlook.extends.wanted (hw.2 other hother)
        cases found with
        | none =>
          dsimp only at hminds ⊢
          obtain ⟨e, ha, hb, rfl⟩ := hbeside
            (Steps.minds ((steps_report files a' _).trans
              (@steps_bindImports files known context (a'.report _) rest hrest)) hminds)
          obtain ⟨⟨e', ha', hb'⟩, hsame⟩ := ih
            ((h.gains ha hb).gains (.report ha.breakdown _) (.report hb.breakdown _)) context hrest hnames.2 hminds
          exact ⟨⟨_, (ha.trans (.report ha.breakdown _)).trans ha', (hb.trans (.report hb.breakdown _)).trans hb'⟩,
            hsame⟩
        | some m =>
          dsimp only at hminds ⊢
          obtain ⟨e, ha, hb, rfl⟩ := hbeside ((steps_bindImports files known _ hrest).minds hminds)
          obtain ⟨⟨e', ha', hb'⟩, hcontext, hneeded⟩ := ih (h.gains ha hb) _ hrest hnames.2 hminds
          dsimp only
          refine ⟨⟨_, ha.trans ha', hb.trans hb'⟩, hcontext, ?_⟩
          rw [hneeded, List.contains_eq_mem, List.contains_eq_mem]
          rw [decide_eq_decide.2 (hknown i.moduleName hnames.1)]

theorem beside_enterAll (α : Type) [Defined α] (h : Beside f a b) (context : Context) (table : Table α)
    (l : List α) :
    (∃ e, Gains a e (enterAll α context table a l).2 ∧ Gains b e (enterAll α context table b l).2)
      ∧ (enterAll α context table b l).1 = (enterAll α context table a l).1 := by
  induction l generalizing table a b with
  | nil => exact ⟨⟨.none, .refl h.breakdown, .refl h.breakdown'⟩, rfl⟩
  | cons definition rest ih =>
    unfold enterAll
    dsimp only
    split
    · have ha := @Gains.report a h.breakdown (context.problem (.duplicate (Defined.kind α) (Defined.name definition)))
      have hb := @Gains.report b h.breakdown' (context.problem (.duplicate (Defined.kind α) (Defined.name definition)))
      obtain ⟨⟨e, ha', hb'⟩, hsame⟩ := ih (h.gains ha hb) _
      exact ⟨⟨_, ha.trans ha', hb.trans hb'⟩, hsame⟩
    · exact ih h _

theorem beside_contextualise (h : Beside f a b) {known known' : List String}
    (hknown : ∀ name, f.modules name = false → (name ∈ known ↔ name ∈ known')) (owner : String)
    (typedefs : Table Typedef) (groupings : Table Grouping) {documents : List Document}
    (hd : ∀ d ∈ documents, a.store.Loaded d) (howned : ∀ d ∈ documents, f.owns d = false)
    (hminds : Minds f (contextualise files known owner typedefs groupings a documents).2.2) :
    (∃ e, Gains a e (contextualise files known owner typedefs groupings a documents).2.2
        ∧ Gains b e (contextualise files known' owner typedefs groupings b documents).2.2)
      ∧ (contextualise files known' owner typedefs groupings b documents).1
        = (contextualise files known owner typedefs groupings a documents).1
      ∧ (contextualise files known' owner typedefs groupings b documents).2.1
        = (contextualise files known owner typedefs groupings a documents).2.1 := by
  induction documents generalizing typedefs groupings a b with
  | nil => exact ⟨⟨.none, .refl h.breakdown, .refl h.breakdown'⟩, rfl, rfl⟩
  | cons document rest ih =>
    rw [List.forall_mem_cons] at hd howned
    have hw : ∀ i ∈ document.body.imports, a.store.Wanted i.moduleName :=
      fun i hi => ⟨document, hd.1, .inr ⟨i, hi, rfl⟩⟩
    have himports : Minds f a → ∀ i ∈ document.body.imports, f.modules i.moduleName = false :=
      fun hm => (hm.ignores document hd.1 howned.1).imports
    unfold contextualise at hminds ⊢
    dsimp only at hminds ⊢
    have hsteps := steps_bindImports files known (.first owner document) hw
    have hbound := fun hnames => @beside_bindImports f a b files h known known' hknown (.first owner document)
      document.body.imports hw hnames
    generalize bindImports files known (.first owner document) a document.body.imports = bound
      at hsteps hbound hminds ⊢
    generalize bindImports files known' (.first owner document) b document.body.imports = bound' at hbound ⊢
    obtain ⟨context, needed, a₁⟩ := bound
    obtain ⟨context', needed', b₁⟩ := bound'
    dsimp only at hsteps hbound hminds ⊢
    have hstepsTypedefs := steps_enterAll files Typedef context typedefs a₁ document.body.typedefs
    have htypedefs := fun h => @beside_enterAll f a₁ b₁ Typedef _ h context typedefs document.body.typedefs
    generalize enterAll Typedef context typedefs a₁ document.body.typedefs = checked
      at hstepsTypedefs htypedefs hminds ⊢
    obtain ⟨typedefs', a₂⟩ := checked
    dsimp only at hstepsTypedefs htypedefs hminds ⊢
    have hstepsGroupings := steps_enterAll files Grouping context groupings a₂ document.body.groupings
    have hgroupings := fun b₂ h => @beside_enterAll f a₂ b₂ Grouping _ h context groupings document.body.groupings
    generalize enterAll Grouping context groupings a₂ document.body.groupings = checked
      at hstepsGroupings hgroupings hminds ⊢
    obtain ⟨groupings', a₃⟩ := checked
    dsimp only at hstepsGroupings hgroupings hminds ⊢
    have hchecked : Steps files a₁ a₃ := hstepsTypedefs.trans hstepsGroupings
    have hloaded : ∀ d ∈ rest, a₃.store.Loaded d :=
      fun d hmem => (Steps.extends (hsteps.trans hchecked)).loaded (hd.2 d hmem)
    have hminds₃ := (steps_contextualise files known owner typedefs' groupings' hloaded).minds hminds
    have hminds₁ := Steps.minds hchecked hminds₃
    obtain ⟨⟨e, ha, hb⟩, rfl, rfl⟩ := hbound (himports (Steps.minds hsteps hminds₁)) hminds₁
    obtain ⟨⟨e₁, ha₁, hb₁⟩, hnames₁⟩ := htypedefs (h.gains ha hb)
    generalize enterAll Typedef context' typedefs b₁ document.body.typedefs = checked' at hb₁ hnames₁ ⊢
    obtain ⟨table, b₂⟩ := checked'
    cases hnames₁
    dsimp only at hb₁ ⊢
    obtain ⟨⟨e₂, ha₂, hb₂⟩, hnames₂⟩ := hgroupings b₂ ((h.gains ha hb).gains ha₁ hb₁)
    generalize enterAll Grouping context' groupings b₂ document.body.groupings = checked' at hb₂ hnames₂ ⊢
    obtain ⟨table', b₃⟩ := checked'
    cases hnames₂
    dsimp only at hb₂ ⊢
    have ha₃ := (ha.trans ha₁).trans ha₂
    have hb₃ := (hb.trans hb₁).trans hb₂
    obtain ⟨⟨e₃, ha₄, hb₄⟩, hcontexts, hmore⟩ :=
      ih (h.gains ha₃ hb₃) table table' hloaded howned.2 hminds
    refine ⟨⟨_, ha₃.trans ha₄, hb₃.trans hb₄⟩, ?_, ?_⟩
    · rw [hcontexts]
    · rw [hmore]

theorem Gains.note (h : g.breakdown = none) (n : Note) : Gains g .none (g.note n) := by
  unfold Gathering.note
  split
  · exact .refl h
  · exact ⟨.note _ n, (List.append_nil _).symm, h⟩

theorem beside_scope (h : Beside f a b) {known known' : List String}
    (hknown : ∀ name, f.modules name = false → (name ∈ known ↔ name ∈ known')) {main : Module}
    (hm : main ∈ a.store.modules) (hmain : f.modules main.name = false)
    (hminds : Minds f (scope files known main a).2.2) :
    (∃ e, Gains a e (scope files known main a).2.2 ∧ Gains b e (scope files known' main b).2.2)
      ∧ (scope files known' main b).1 = (scope files known main a).1
      ∧ (scope files known' main b).2.1 = (scope files known main a).2.1 := by
  unfold scope at hminds ⊢
  dsimp only at hminds ⊢
  obtain ⟨hsteps, hloaded⟩ := steps_closure_main files hm
  have hclosed := @beside_closure f a b files h main.name [] [.main main] (List.forall_mem_singleton.2 hm)
    (List.forall_mem_singleton.2 hmain)
  generalize closure files main.name [] a [.main main] = closed at hsteps hloaded hclosed hminds ⊢
  generalize closure files main.name [] b [.main main] = closed' at hclosed ⊢
  obtain ⟨documents, a₁⟩ := closed
  obtain ⟨documents', b₁⟩ := closed'
  dsimp only at hsteps hloaded hclosed hminds ⊢
  have hcontexts := steps_contextualise files known main.name [] [] hloaded
  have hnote : Steps files _ _ := .single (.note (contextualise files known main.name [] [] a₁ documents).2.2
    main.name documents.length)
  have hminds₂ := Steps.minds hnote hminds
  obtain ⟨⟨e, ha, hb⟩, rfl, howned'⟩ := hclosed (Steps.minds hcontexts hminds₂)
  obtain ⟨⟨e', ha', hb'⟩, hsame, hneeded⟩ :=
    beside_contextualise (h.gains ha hb) hknown main.name [] [] hloaded howned' hminds₂
  refine ⟨⟨_, (ha.trans ha').trans (.note ha'.breakdown _), (hb.trans hb').trans (.note hb'.breakdown _)⟩, ?_, ?_⟩
  · rw [hsame]
  · exact hneeded

theorem needed_bindImports (known : List String) (context : Context) {imports : List Import}
    (hw : ∀ i ∈ imports, g.store.Wanted i.moduleName) :
    ∀ name ∈ (bindImports files known context g imports).2.1,
      (∃ i ∈ imports, i.moduleName = name)
        ∧ ((bindImports files known context g imports).2.2.store.module? name).isSome = true := by
  induction imports generalizing context g with
  | nil => exact List.forall_mem_nil _
  | cons i rest ih =>
    rw [List.forall_mem_cons] at hw
    have hreport : ∀ g' : Gathering, (∀ other ∈ rest, g'.store.Wanted other.moduleName) → ∀ context,
        ∀ name ∈ (bindImports files known context g' rest).2.1, (∃ j ∈ i :: rest, j.moduleName = name)
          ∧ ((bindImports files known context g' rest).2.2.store.module? name).isSome = true := by
      intro g' hrest context name hname
      obtain ⟨⟨j, hj, heq⟩, hsome⟩ := @ih g' context hrest name hname
      exact ⟨⟨j, List.mem_cons_of_mem _ hj, heq⟩, hsome⟩
    unfold bindImports
    split
    · exact hreport (g.report _) hw.2 context
    · split
      · exact hreport (g.report _) hw.2 context
      · have hlook : Steps files g (g.look Store.findModule files i.moduleName).2 := .single (.look _ g hw.1)
        have hget := @module?_of_look files i.moduleName g
        generalize g.look Store.findModule files i.moduleName = looked at hlook hget
        obtain ⟨found, g'⟩ := looked
        dsimp only at hlook hget ⊢
        have hrest : ∀ other ∈ rest, g'.store.Wanted other.moduleName :=
          fun other hother => hlook.extends.wanted (hw.2 other hother)
        cases found with
        | none => exact hreport (g'.report _) hrest context
        | some m =>
          dsimp only
          split
          · exact hreport g' hrest _
          · rw [List.forall_mem_cons]
            refine ⟨⟨⟨i, List.mem_cons_self, rfl⟩, ?_⟩, hreport g' hrest _⟩
            apply get_of_steps (steps_bindImports files known _ hrest)
            rw [hget rfl]
            rfl

theorem needed_contextualise (known : List String) (owner : String)
    (typedefs : Table Typedef) (groupings : Table Grouping)
    {documents : List Document} (hd : ∀ d ∈ documents, g.store.Loaded d) :
    ∀ name ∈ (contextualise files known owner typedefs groupings g documents).2.1,
      (∃ d ∈ documents, ∃ i ∈ d.body.imports, i.moduleName = name)
        ∧ ((contextualise files known owner typedefs groupings g documents).2.2.store.module? name).isSome = true := by
  induction documents generalizing typedefs groupings g with
  | nil => exact List.forall_mem_nil _
  | cons document rest ih =>
    rw [List.forall_mem_cons] at hd
    have hw : ∀ i ∈ document.body.imports, g.store.Wanted i.moduleName :=
      fun i hi => ⟨document, hd.1, .inr ⟨i, hi, rfl⟩⟩
    unfold contextualise
    dsimp only
    have himports := steps_bindImports files known (.first owner document) hw
    have hbound := @needed_bindImports g files known (.first owner document) _ hw
    generalize bindImports files known (.first owner document) g document.body.imports = bound at himports hbound ⊢
    obtain ⟨context, needed, g₁⟩ := bound
    have htypedefs := steps_enterAll files Typedef context typedefs g₁ document.body.typedefs
    dsimp only at himports hbound htypedefs ⊢
    generalize enterAll Typedef context typedefs g₁ document.body.typedefs = checked at htypedefs ⊢
    obtain ⟨typedefs', g₂⟩ := checked
    have hgroupings := steps_enterAll files Grouping context groupings g₂ document.body.groupings
    dsimp only at htypedefs hgroupings ⊢
    generalize enterAll Grouping context groupings g₂ document.body.groupings = checked at hgroupings ⊢
    obtain ⟨groupings', g₃⟩ := checked
    dsimp only at hgroupings ⊢
    have hchecked : Steps files g₁ g₃ := htypedefs.trans hgroupings
    have hloaded : ∀ d ∈ rest, g₃.store.Loaded d :=
      fun d hmem => hchecked.extends.loaded (Steps.extends himports |>.loaded (hd.2 d hmem))
    have hrest := steps_contextualise files known owner typedefs' groupings' hloaded
    intro name hname
    rcases List.mem_append.1 hname with hname | hname
    · obtain ⟨hi, hsome⟩ := hbound name hname
      exact ⟨⟨document, List.mem_cons_self, hi⟩, get_of_steps (hchecked.trans hrest) hsome⟩
    · obtain ⟨⟨d, hmem, hi⟩, hsome⟩ := ih typedefs' groupings' hloaded name hname
      exact ⟨⟨d, List.mem_cons_of_mem _ hmem, hi⟩, hsome⟩

theorem needed_scope (known : List String) {main : Module} (hm : main ∈ g.store.modules) :
    ∀ name ∈ (scope files known main g).2.1,
      (∃ c ∈ (scope files known main g).1.contexts, ∃ i ∈ c.document.body.imports, i.moduleName = name)
        ∧ ((scope files known main g).2.2.store.module? name).isSome = true := by
  unfold scope
  dsimp only
  obtain ⟨_, hloaded⟩ := steps_closure_main files hm
  generalize closure files main.name [] g [.main main] = closed at hloaded ⊢
  obtain ⟨documents, g₁⟩ := closed
  dsimp only at hloaded ⊢
  intro name hname
  obtain ⟨⟨d, hd, hi⟩, hsome⟩ := needed_contextualise known main.name [] [] hloaded name hname
  obtain ⟨hdocuments, _⟩ := contextualise_spec files known main.name [] [] hloaded
  rw [← hdocuments] at hd
  obtain ⟨c, hc, rfl⟩ := List.mem_map.1 hd
  exact ⟨⟨c, hc, hi⟩, get_of_steps (.single (.note _ _ _) : Steps files _ _) hsome⟩

end Gathering

end Yang

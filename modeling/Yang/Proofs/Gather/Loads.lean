import Yang.Proofs.Gather.Step

/-!
This module contains what a gathering reads: every file is loaded at most once for the sake of a name, however often
it is wanted. A gathering ends without a result only when a wanted name makes a path that cannot be looked at, or when
a loaded file cannot be parsed at all.
-/

namespace Yang

structure Load where
  name : String
  path : Path
  site : Site

def Note.loading? : Note → Option (String × String)
  | loading name path => some (name, path)
  | _ => none

namespace Store

/--
What was loaded between two stores of the same run. Each of the files is another one, and none was searched before.
-/
structure Loads (files : Files) (before after : Store) (loads : List Load) : Prop where
  noted : after.journal.filterMap Note.loading?
    = before.journal.filterMap Note.loading? ++ loads.map (fun l => (l.name, l.path.text))
  searched : after.searched = (loads.map Load.site).reverse ++ before.searched
  found : ∀ l ∈ loads, locate before.searchPath files (l.name ++ schemaSuffix) = .ok (some l.path)
    ∧ files.file? l.path = some l.site
  once : (loads.map Load.site).Nodup
  fresh : ∀ l ∈ loads, l.site ∉ before.searched

variable {files : Files} {store : Store}

theorem Loads.of_eq {before after : Store}
    (hnoted : after.journal.filterMap Note.loading? = before.journal.filterMap Note.loading?)
    (hsearched : after.searched = before.searched) : Loads files before after [] where
  noted := by rw [hnoted, List.map_nil, List.append_nil]
  searched := hsearched
  found := fun l hl => nomatch hl
  once := List.nodup_nil
  fresh := fun l hl => nomatch hl

theorem Loads.trans {a b c : Store} {loads more : List Load} (hab : Loads files a b loads)
    (hbc : Loads files b c more) (hpath : b.searchPath = a.searchPath) : Loads files a c (loads ++ more) where
  noted := by rw [hbc.noted, hab.noted, List.map_append, List.append_assoc]
  searched := by rw [hbc.searched, hab.searched, List.map_append, List.reverse_append, List.append_assoc]
  found := by
    intro l hl
    rcases List.mem_append.1 hl with hl | hl
    · exact hab.found l hl
    · rw [← hpath]
      exact hbc.found l hl
  once := by
    rw [List.map_append, List.nodup_append]
    refine ⟨hab.once, hbc.once, ?_⟩
    -- what was loaded first had been searched when the second part began
    intro site hsite other hother heq
    obtain ⟨l, hl, rfl⟩ := List.mem_map.1 hother
    apply hbc.fresh l hl
    rw [hab.searched, ← heq, List.mem_append, List.mem_reverse]
    exact .inl hsite
  fresh := by
    intro l hl hin
    rcases List.mem_append.1 hl with hl | hl
    · exact hab.fresh l hl hin
    · apply hbc.fresh l hl
      rw [hab.searched]
      exact List.mem_append_right _ hin

theorem noted_add (document : Document) :
    (store.add document).journal.filterMap Note.loading? = store.journal.filterMap Note.loading? := by
  cases document with
  | part s => rfl
  | main m =>
    unfold add
    dsimp only
    split
    · simp [Store.note, Note.loading?]
    · rfl

theorem noted_addAll (documents : List Document) :
    (store.addAll documents).journal.filterMap Note.loading? = store.journal.filterMap Note.loading? := by
  induction documents generalizing store with
  | nil => rfl
  | cons document rest ih => exact ih.trans (noted_add document)

theorem noted_readPath (path : Path) :
    (store.readPath files path).2.journal.filterMap Note.loading? = store.journal.filterMap Note.loading? := by
  unfold readPath
  split
  · rfl
  · split
    · rfl
    · unfold parse
      split
      · rw [noted_addAll]
        simp [Store.note, Note.loading?]
      · simp [Store.note, Note.loading?]

/--
Why a gathering may end without a result.
-/
inductive Escapes (files : Files) (store : Store) (loads : List Load) : Breakdown → Prop
  | path {name : String} {fault : FileFault} (hw : store.Wanted name)
    (h : locate store.searchPath files (name ++ schemaSuffix) = .error fault) : Escapes files store loads (.path fault)
  | parse {l : Load} {bytes : List UInt8} {text : String} {cause : Breakdown} (hl : l ∈ loads)
    (hbytes : files.content? l.site = some bytes) (htext : Files.decodeText bytes = .ok text)
    (h : Document.parse text l.path.text = .error (.breakdown cause)) : Escapes files store loads cause

theorem Escapes.mono {before after : Store} (h : before.Extends after) {loads more : List Load}
    (hmore : loads ⊆ more) {cause : Breakdown} (he : Escapes files before loads cause) :
    Escapes files after more cause := by
  cases he with
  | path hw hlocate =>
    rw [← h.searchPath] at hlocate
    exact .path (h.wanted hw) hlocate
  | parse hl hbytes htext hparse => exact .parse (hmore hl) hbytes htext hparse

theorem readPath_eq_breakdown {path : Path} {cause : Breakdown}
    (h : (store.readPath files path).1 = .error (.breakdown cause)) :
    ∃ site bytes text, files.file? path = some site ∧ files.content? site = some bytes
      ∧ Files.decodeText bytes = .ok text ∧ Document.parse text path.text = .error (.breakdown cause) := by
  unfold readPath at h
  split at h
  · cases h
  · next bytes hbytes =>
    obtain ⟨site, hsite, hcontent⟩ := Option.bind_eq_some_iff.1 hbytes
    split at h
    · cases h
    · next text htext =>
      unfold parse at h
      split at h
      · cases h
      · next refusal hparse =>
        cases h
        exact ⟨site, bytes, text, hsite, hcontent, htext, hparse⟩

theorem loads_loadPath {name : String} {path : Path}
    (hlocate : locate store.searchPath files (name ++ schemaSuffix) = .ok (some path)) :
    ∃ loads, Loads files store (store.loadPath files name path).2 loads
      ∧ ∀ cause, (store.loadPath files name path).1 = .error (.breakdown cause) →
        Escapes files (store.loadPath files name path).2 loads cause := by
  unfold loadPath
  split
  · exact ⟨[], .of_eq rfl rfl, fun cause h => nomatch h⟩
  · next site hsite =>
    obtain ⟨hfile, hnew⟩ := Option.filter_eq_some_iff.1 hsite
    refine ⟨[⟨name, path, site⟩], ?_, fun cause h => ?_⟩
    · constructor
      · dsimp only
        rw [noted_readPath]
        simp [Store.note, Note.loading?]
      · dsimp only
        rw [searched_readPath]
        rfl
      · intro l hl
        rw [List.mem_singleton.1 hl]
        exact ⟨hlocate, hfile⟩
      · simp
      · intro l hl
        rw [List.mem_singleton.1 hl]
        simpa using hnew
    · dsimp only at h
      generalize hread : Store.readPath _ files path = read at h
      obtain ⟨outcome, after⟩ := read
      cases outcome with
      | ok _ => cases h
      | error refusal =>
        cases h
        obtain ⟨site', bytes, text, hsite', hbytes, htext, hparse⟩ :=
          readPath_eq_breakdown (congrArg Prod.fst hread)
        rw [hfile] at hsite'
        cases hsite'
        exact .parse List.mem_cons_self hbytes htext hparse

theorem loads_load (files : Files) {name : String} (hw : store.Wanted name) :
    ∃ loads, Loads files store (store.load files name).2 loads
      ∧ ∀ cause, (store.load files name).1 = .error (.breakdown cause) →
        Escapes files (store.load files name).2 loads cause := by
  unfold load
  split
  · next fault hfault =>
    refine ⟨[], .of_eq rfl rfl, fun cause h => ?_⟩
    cases h
    exact .path hw hfault
  · exact ⟨[], .of_eq rfl rfl, fun cause h => nomatch h⟩
  · next path hpath => exact loads_loadPath hpath

theorem loads_find {α : Type} (get : Store → String → Option α) (files : Files) {name : String}
    (hw : store.Wanted name) :
    ∃ loads, Loads files store (find get store files name).2 loads
      ∧ ∀ cause, (find get store files name).1 = .error (.breakdown cause) →
        Escapes files (find get store files name).2 loads cause := by
  unfold find
  split
  · exact ⟨[], .of_eq rfl rfl, fun cause h => nomatch h⟩
  · obtain ⟨loads, hloads, hescapes⟩ := loads_load files hw
    refine ⟨loads, hloads, fun cause h => hescapes cause ?_⟩
    dsimp only at h
    cases houtcome : (store.load files name).1 with
    | ok _ => rw [houtcome] at h; cases h
    | error refusal =>
      rw [houtcome] at h
      cases h
      rfl

end Store

namespace Gathering

structure Traced (files : Files) (before : Store) (g : Gathering) (loads : List Load) : Prop where
  loaded : before.Loads files g.store loads
  cause : ∀ cause, g.breakdown = some cause → Store.Escapes files g.store loads cause

variable {files : Files} {before : Store} {g g' : Gathering} {loads : List Load}

theorem Traced.begin (files : Files) (store : Store) : Traced files store ⟨store, [], none⟩ [] :=
  ⟨.of_eq rfl rfl, fun _ h => nomatch h⟩

theorem Step.traced (h : Step files g g') (hpath : g.store.searchPath = before.searchPath)
    (hg : Traced files before g loads) : ∃ more, Traced files before g' (loads ++ more) := by
  cases h with
  | report d => exact ⟨[], by rw [List.append_nil]; exact ⟨hg.loaded, hg.cause⟩⟩
  | note _ name n =>
    refine ⟨[], ?_⟩
    rw [List.append_nil]
    unfold Gathering.note
    split
    · exact hg
    · refine ⟨⟨?_, hg.loaded.searched, hg.loaded.found, hg.loaded.once, hg.loaded.fresh⟩, fun cause h => ?_⟩
      · rw [← hg.loaded.noted]
        simp [Store.note, Note.loading?]
      · have hextends : g.store.Extends (g.store.note (.collected name n)) :=
          ⟨rfl, List.prefix_refl _, List.prefix_refl _⟩
        exact (hg.cause cause h).mono hextends (List.Subset.refl _)
  | @look _ get _ name hw =>
    unfold Gathering.look
    split
    · exact ⟨[], by rw [List.append_nil]; exact hg⟩
    · next hrunning =>
      obtain ⟨more, hmore, hescapes⟩ := Store.loads_find get files hw
      have hextends := Store.extends_find get g.store files name
      have hloads := hg.loaded.trans hmore hpath
      have hnone : g.breakdown = none := by simpa using hrunning
      refine ⟨more, ?_⟩
      generalize Store.find get g.store files name = found at hmore hescapes hextends hloads
      obtain ⟨outcome, after⟩ := found
      cases outcome with
      | ok _ =>
        refine ⟨hloads, fun cause h => ?_⟩
        dsimp only at h
        rw [hnone] at h
        cases h
      | error refusal =>
        cases refusal with
        | problem d =>
          refine ⟨hloads, fun cause h => ?_⟩
          change g.breakdown = some cause at h
          rw [hnone] at h
          cases h
        | breakdown cause =>
          refine ⟨hloads, fun _ h => ?_⟩
          cases h
          apply (hescapes cause rfl).mono (Store.Extends.refl _)
          exact List.subset_append_right _ _

theorem Steps.traced {store : Store} (h : Steps files ⟨store, [], none⟩ g) : ∃ loads, Traced files store g loads := by
  -- names are looked up along the search path, so it has to be kept along with the trace
  suffices hkept : g.store.searchPath = store.searchPath ∧ ∃ loads, Traced files store g loads from hkept.2
  apply Steps.lift (p := fun g => g.store.searchPath = store.searchPath ∧ ∃ loads, Traced files store g loads) _ h
  · exact ⟨rfl, [], Traced.begin files store⟩
  · rintro g g' hstep ⟨hpath, loads, htraced⟩
    obtain ⟨more, hmore⟩ := hstep.traced hpath htraced
    exact ⟨hstep.extends.searchPath.trans hpath, _, hmore⟩

end Gathering

end Yang

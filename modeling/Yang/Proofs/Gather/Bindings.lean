import Yang.Proofs.Gather.About

/-!
This module contains what the imports of a document come to: each of them binds its prefix or is reported, and a prefix
stands for the module of the first import of it whose module could be found at its turn.
-/

namespace Yang

def Finding.isAboutImport : Finding → Bool
  | prefixShadows .. => true
  | prefixTaken .. => true
  | importNotFound _ => true
  | _ => false

namespace Gathering

structure Arrival where
  item : Import
  before : Gathering

namespace Arrival

def isFound (files : Files) (a : Arrival) : Bool :=
  (a.before.look Store.findModule files a.item.moduleName).1.isSome

def takes (files : Files) (prefixId : String) (a : Arrival) : Bool :=
  a.item.prefixId == prefixId && a.isFound files

def finding? (files : Files) (own : String) (earlier : List Arrival) (a : Arrival) : Option Finding :=
  if a.item.prefixId = own then
    some (.prefixShadows a.item.moduleName a.item.prefixId)
  else if earlier.any (takes files a.item.prefixId) then
    some (.prefixTaken a.item.moduleName a.item.prefixId)
  else if a.isFound files then
    none
  else
    some (.importNotFound a.item.moduleName)

theorem isAboutImport_of_finding? {files : Files} {own : String} {earlier : List Arrival} {a : Arrival}
    {finding : Finding} (h : a.finding? files own earlier = some finding) : finding.isAboutImport = true := by
  unfold finding? at h
  split at h
  · cases h
    rfl
  · split at h
    · cases h
      rfl
    · split at h
      · cases h
      · cases h
        rfl

end Arrival

structure Verdict where
  item : Import
  finding? : Option Finding

def Verdict.binding? (v : Verdict) : Option (String × String) :=
  match v.finding? with
  | none => some (v.item.prefixId, v.item.moduleName)
  | some _ => none

def verdicts (files : Files) (own : String) (earlier : List Arrival) : List Arrival → List Verdict
  | [] => []
  | a :: rest => ⟨a.item, a.finding? files own earlier⟩ :: verdicts files own (earlier ++ [a]) rest

variable {files : Files} {own : String}

theorem isAboutImport_of_mem_verdicts {earlier arrivals : List Arrival} {v : Verdict}
    (hv : v ∈ verdicts files own earlier arrivals) {finding : Finding} (h : v.finding? = some finding) :
    finding.isAboutImport = true := by
  induction arrivals generalizing earlier with
  | nil => cases hv
  | cons a rest ih =>
    unfold verdicts at hv
    rcases List.mem_cons.1 hv with rfl | hv
    · exact Arrival.isAboutImport_of_finding? h
    · exact ih hv

theorem any_append_singleton (q : String) (earlier : List Arrival) (a : Arrival) :
    (earlier ++ [a]).any (Arrival.takes files q) = (earlier.any (Arrival.takes files q) || a.takes files q) := by
  rw [List.any_append, List.any_cons, List.any_nil, Bool.or_false]

theorem binding?_eq_some {earlier : List Arrival} {a : Arrival} {entry : String × String}
    (h : (Verdict.mk a.item (a.finding? files own earlier)).binding? = some entry) :
    entry = (a.item.prefixId, a.item.moduleName) ∧ a.item.prefixId ≠ own
      ∧ earlier.any (Arrival.takes files a.item.prefixId) = false ∧ a.isFound files = true := by
  unfold Verdict.binding? Arrival.finding? at h
  dsimp only at h
  split at h
  · next heq =>
    split at heq
    · cases heq
    · next hown =>
      split at heq
      · cases heq
      · next hfree =>
        split at heq
        · next hfound => exact ⟨(Option.some.inj h).symm, hown, Bool.eq_false_iff.2 hfree, hfound⟩
        · cases heq
  · cases h

theorem binding?_of_isFound {earlier : List Arrival} {a : Arrival} (hown : a.item.prefixId ≠ own)
    (hfree : earlier.any (Arrival.takes files a.item.prefixId) = false) (hfound : a.isFound files = true) :
    (Verdict.mk a.item (a.finding? files own earlier)).binding? = some (a.item.prefixId, a.item.moduleName) := by
  unfold Verdict.binding? Arrival.finding?
  rw [if_neg hown, hfree, if_neg Bool.false_ne_true, if_pos hfound]

theorem lookup_entries {q : String} (hq : q ≠ own) {earlier : List Arrival} (arrivals : List Arrival)
    (hfree : earlier.any (Arrival.takes files q) = false) :
    ((verdicts files own earlier arrivals).filterMap Verdict.binding?).lookup q
      = (arrivals.find? (Arrival.takes files q)).map (fun a => a.item.moduleName) := by
  induction arrivals generalizing earlier with
  | nil => rfl
  | cons a rest ih =>
    unfold verdicts
    rw [List.filterMap_cons, List.find?_cons]
    cases htakes : a.takes files q with
    | true =>
      obtain ⟨hcalled, hfound⟩ := (Bool.and_eq_true_iff.1 htakes)
      have heq : a.item.prefixId = q := beq_iff_eq.1 hcalled
      rw [binding?_of_isFound (heq ▸ hq) (heq ▸ hfree) hfound]
      dsimp only
      rw [heq, List.lookup_cons_self]
      rfl
    | false =>
      have hnext := ih (by rw [any_append_singleton, hfree, htakes]; rfl)
      cases hentry : (Verdict.mk a.item (a.finding? files own earlier)).binding? with
      | none => exact hnext
      | some entry =>
        obtain ⟨rfl, _, _, hfound⟩ := binding?_eq_some hentry
        unfold Arrival.takes at htakes
        rw [hfound, Bool.and_true, beq_eq_false_iff_ne] at htakes
        dsimp only
        rw [List.lookup_cons, beq_eq_false_iff_ne.2 (Ne.symm htakes)]
        exact hnext

theorem nodup_entries (earlier arrivals : List Arrival) :
    (((verdicts files own earlier arrivals).filterMap Verdict.binding?).map Prod.fst).Nodup
      ∧ ∀ q ∈ ((verdicts files own earlier arrivals).filterMap Verdict.binding?).map Prod.fst,
        q ≠ own ∧ earlier.any (Arrival.takes files q) = false := by
  induction arrivals generalizing earlier with
  | nil => exact ⟨List.nodup_nil, fun _ hq => nomatch hq⟩
  | cons a rest ih =>
    obtain ⟨hnodup, hkeys⟩ := ih (earlier ++ [a])
    unfold verdicts
    rw [List.filterMap_cons]
    have hrest : ∀ q ∈ ((verdicts files own (earlier ++ [a]) rest).filterMap Verdict.binding?).map Prod.fst,
        q ≠ own ∧ earlier.any (Arrival.takes files q) = false ∧ a.takes files q = false := by
      intro q hq
      obtain ⟨hown, hfree⟩ := hkeys q hq
      rw [any_append_singleton, Bool.or_eq_false_iff] at hfree
      exact ⟨hown, hfree⟩
    cases hentry : (Verdict.mk a.item (a.finding? files own earlier)).binding? with
    | none => exact ⟨hnodup, fun q hq => ⟨(hrest q hq).1, (hrest q hq).2.1⟩⟩
    | some entry =>
      obtain ⟨rfl, hown, hfree, hfound⟩ := binding?_eq_some hentry
      dsimp only
      rw [List.map_cons, List.nodup_cons, List.forall_mem_cons]
      refine ⟨⟨fun hin => ?_, hnodup⟩, ⟨hown, hfree⟩, fun q hq => ⟨(hrest q hq).1, (hrest q hq).2.1⟩⟩
      have hnot := (hrest _ hin).2.2
      unfold Arrival.takes at hnot
      rw [hfound, beq_self_eq_true] at hnot
      cases hnot

theorem bindImports_cons (files : Files) (known : List String) (context : Context) (g : Gathering) (i : Import)
    (rest : List Import) :
    bindImports files known context g (i :: rest)
      = (let one := bindImports files known context g [i]
        let r := bindImports files known one.1 one.2.2 rest
        (r.1, one.2.1 ++ r.2.1, r.2.2)) := by
  rw [bindImports, bindImports]
  split
  · rfl
  · split
    · rfl
    · generalize g.look Store.findModule files i.moduleName = looked
      obtain ⟨found, g'⟩ := looked
      cases found with
      | none => rfl
      | some m =>
        dsimp only [bindImports]
        split <;> rfl

def arrivals (files : Files) (known : List String) (context : Context) (g : Gathering) (imports : List Import) :
    List Arrival :=
  imports.mapIdx fun k i => ⟨i, (bindImports files known context g (imports.take k)).2.2⟩

theorem arrivals_cons (known : List String) (context : Context) (g : Gathering) (i : Import) (rest : List Import) :
    arrivals files known context g (i :: rest)
      = (let one := bindImports files known context g [i]
        ⟨i, g⟩ :: arrivals files known one.1 one.2.2 rest) := by
  unfold arrivals
  rw [List.mapIdx_cons]
  dsimp only
  congr 2
  funext k j
  rw [List.take_succ_cons, bindImports_cons]

def Covers (files : Files) (earlier : List Arrival) (context : Context) : Prop :=
  ∀ q, q ≠ context.document.body.prefixId →
    (context.prefixes.lookup q).isSome = earlier.any (Arrival.takes files q)

theorem bindImports_singleton (known : List String) {context : Context} (g : Gathering) (i : Import)
    {earlier : List Arrival} (hcovers : Covers files earlier context) (p : Finding → Bool) :
    let v : Verdict := ⟨i, Arrival.finding? files context.document.body.prefixId earlier ⟨i, g⟩⟩
    let r := bindImports files known context g [i]
    r.1 = { context with prefixes := context.prefixes ++ v.binding?.toList }
      ∧ r.2.2.about p = g.about p ++ (v.finding?.filter p).toList.map context.problem := by
  unfold Covers at hcovers
  unfold bindImports bindImports Verdict.binding? Arrival.finding? Arrival.isFound
  dsimp only
  by_cases hown : i.prefixId = context.document.body.prefixId
  · rw [if_pos hown, if_pos hown]
    exact ⟨by rw [Option.toList_none, List.append_nil], about_report _ _ _⟩
  · rw [if_neg hown, if_neg hown, hcovers _ hown]
    cases htaken : earlier.any (Arrival.takes files i.prefixId) with
    | true =>
      rw [if_pos rfl, if_pos rfl]
      exact ⟨by rw [Option.toList_none, List.append_nil], about_report _ _ _⟩
    | false =>
      rw [if_neg Bool.false_ne_true, if_neg Bool.false_ne_true]
      have hlook : (g.look Store.findModule files i.moduleName).2.about p = g.about p := about_look _ _ _ _
      generalize g.look Store.findModule files i.moduleName = looked at hlook ⊢
      obtain ⟨found, g'⟩ := looked
      dsimp only at hlook ⊢
      cases found with
      | none =>
        refine ⟨by rw [Option.isSome_none, if_neg Bool.false_ne_true, Option.toList_none, List.append_nil], ?_⟩
        rw [Option.isSome_none, if_neg Bool.false_ne_true, ← hlook]
        apply about_report
      | some m =>
        refine ⟨rfl, ?_⟩
        rw [Option.isSome_some, if_pos rfl, ← hlook]
        exact (List.append_nil _).symm

theorem Covers.step {context : Context} {earlier : List Arrival} (hcovers : Covers files earlier context)
    (a : Arrival) :
    let v : Verdict := ⟨a.item, a.finding? files context.document.body.prefixId earlier⟩
    Covers files (earlier ++ [a]) { context with prefixes := context.prefixes ++ v.binding?.toList } := by
  intro v q hq
  rw [any_append_singleton, List.lookup_append, Option.isSome_or, hcovers q hq]
  cases hfree : earlier.any (Arrival.takes files q) with
  | true => rfl
  | false =>
    rw [Bool.false_or, Bool.false_or]
    have hlookup := lookup_entries hq [a] hfree
    unfold verdicts verdicts at hlookup
    rw [List.filterMap_cons] at hlookup
    change (v.binding?.toList.lookup q).isSome = _
    have hentries : v.binding?.toList = [v].filterMap Verdict.binding? := by
      rw [List.filterMap_cons]
      cases v.binding? <;> rfl
    rw [hentries, List.filterMap_cons, hlookup, Option.isSome_map, List.find?_singleton]
    cases a.takes files q <;> rfl

theorem bindImports_verdicts (known : List String) {context : Context} (g : Gathering) (imports : List Import)
    {earlier : List Arrival} (hcovers : Covers files earlier context) (p : Finding → Bool) :
    let given := verdicts files context.document.body.prefixId earlier (arrivals files known context g imports)
    let r := bindImports files known context g imports
    r.1 = { context with prefixes := context.prefixes ++ given.filterMap Verdict.binding? }
      ∧ r.2.2.about p
        = g.about p ++ given.filterMap fun v => (v.finding?.filter p).map context.problem := by
  induction imports generalizing context g earlier with
  | nil =>
    dsimp only
    constructor
    · exact congrArg (fun prefixes => { context with prefixes := prefixes }) (List.append_nil _).symm
    · exact (List.append_nil _).symm
  | cons i rest ih =>
    rw [bindImports_cons, arrivals_cons]
    obtain ⟨hcontext, habout⟩ := bindImports_singleton known g i hcovers p
    have hstep := hcovers.step ⟨i, g⟩
    generalize bindImports files known context g [i] = one at hcontext habout ⊢
    obtain ⟨bound, needed, g'⟩ := one
    dsimp only at hcontext habout hstep ⊢
    rw [← hcontext] at hstep
    obtain ⟨hcontext', habout'⟩ := ih g' hstep
    subst hcontext
    unfold verdicts
    dsimp only at hcontext' habout' ⊢
    rw [hcontext', habout', habout, List.filterMap_cons, List.filterMap_cons, List.append_assoc, List.append_assoc]
    constructor
    · cases (Verdict.mk i (Arrival.finding? files context.document.body.prefixId earlier ⟨i, g⟩)).binding? <;> rfl
    · cases (Arrival.finding? files context.document.body.prefixId earlier ⟨i, g⟩).filter p <;> rfl

/--
What the imports of a document in the scope of a module come to. An import either has an entry in the table of prefixes
or one finding.
-/
structure Binds (files : Files) (known : List String) (owner : String) (document : Document) (g : Gathering)
    (imports : List Import) (table : List (String × String)) (after : Gathering) : Prop where
  own : table.lookup document.body.prefixId = some owner
  other : ∀ q, q ≠ document.body.prefixId → table.lookup q
    = ((arrivals files known (.first owner document) g imports).find? (Arrival.takes files q)).map
      fun a => a.item.moduleName
  nodup : (table.map Prod.fst).Nodup
  entries : table = (document.body.prefixId, owner)
    :: (verdicts files document.body.prefixId [] (arrivals files known (.first owner document) g imports)).filterMap
      Verdict.binding?
  findings : after.about Finding.isAboutImport
    = g.about Finding.isAboutImport
      ++ (verdicts files document.body.prefixId [] (arrivals files known (.first owner document) g imports)).filterMap
        fun v => v.finding?.map (Context.first owner document).problem

theorem covers_first (files : Files) (owner : String) (document : Document) :
    Covers files [] (.first owner document) := by
  intro q hq
  change q ≠ document.body.prefixId at hq
  unfold Context.first
  rw [List.lookup_cons, beq_eq_false_iff_ne.2 hq]
  rfl

theorem bindImports_first (files : Files) (known : List String) (owner : String) (document : Document) (g : Gathering)
    (imports : List Import) :
    let r := bindImports files known (.first owner document) g imports
    r.1 = ⟨document, owner, r.1.prefixes⟩ ∧ Binds files known owner document g imports r.1.prefixes r.2.2 := by
  obtain ⟨hcontext, habout⟩ :=
    bindImports_verdicts known g imports (covers_first files owner document) Finding.isAboutImport
  dsimp only at hcontext habout ⊢
  rw [hcontext]
  refine ⟨rfl, ?_⟩
  change Binds files known owner document g imports ((document.body.prefixId, owner)
    :: (verdicts files document.body.prefixId [] (arrivals files known (.first owner document) g imports)).filterMap
      Verdict.binding?) _
  obtain ⟨hnodup, hkeys⟩ := @nodup_entries files document.body.prefixId []
    (arrivals files known (.first owner document) g imports)
  constructor
  · exact List.lookup_cons_self
  · intro q hq
    rw [List.lookup_cons, beq_eq_false_iff_ne.2 hq]
    exact lookup_entries hq _ rfl
  · rw [List.map_cons, List.nodup_cons]
    exact ⟨fun hin => (hkeys _ hin).1 rfl, hnodup⟩
  · rfl
  · rw [habout]
    congr 1
    apply List.filterMap_congr
    intro v hv
    cases hfinding : v.finding? with
    | none => rfl
    | some finding => rw [Option.filter_some, if_pos (isAboutImport_of_mem_verdicts hv hfinding)]

variable {known : List String} {owner : String} {document : Document} {g after : Gathering} {imports : List Import}
  {table : List (String × String)}

end Gathering

end Yang

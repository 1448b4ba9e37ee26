import Mathlib.Data.List.Pairwise
import Yang.Proofs.Scope.Firsts
import Yang.Proofs.Typing.Walk

/-!
This module contains the account of the problems with types. A walk ends at a derived type that leads to itself only if
it comes back to one of its own types, and then something is remembered of all types on that cycle. So what was reported
at any time is one problem for each cycle of remembered types, one for each remembered type whose reference stands for
nothing, and those of the other references that were resolved so far.
-/

namespace Yang

namespace Scopes

structure Accounts (scopes : Scopes) (w : Work) (recursions : List (Located Typedef)) (complaints : List Diagnostic) :
    Prop where
  closed : ∀ l k, scopes.Holds l → w.isSettled l = true → scopes.Refers l k → w.isSettled k = true
  recursive : ∀ r ∈ recursions, scopes.Holds r ∧ w.isSettled r = true ∧ scopes.Leads r r
  apart : recursions.Pairwise fun r r' => ¬ scopes.Leads r r'
  complete : ∀ l, scopes.Holds l → w.isSettled l = true → scopes.Leads l l → ∃ r ∈ recursions, scopes.Leads l r
  problems : (w.about Finding.isAboutType).Perm (recursions.map Located.recursion
    ++ (((scopes.firsts Typedef).filter w.isSettled).filterMap scopes.complaintOf? ++ complaints))

variable {scopes : Scopes} {w w' : Work} {context : Context} {reference : String} {l k r : Located Typedef}
  {inside : List DefinitionKey} {path recursions : List (Located Typedef)} {again : Option (Located Typedef)}
  {complaints : List Diagnostic}

section

variable (hc : scopes.Coherent)

include hc

theorem Walks.fresh (h : Walks scopes w inside l path again) (hl : scopes.Holds l) :
    ∀ k ∈ path, scopes.Holds k ∧ w.isSettled k = false ∧ k.key ∉ inside := by
  induction h with
  | known => exact List.forall_mem_nil _
  | again => exact List.forall_mem_nil _
  | last hnew hout _ =>
    rw [List.forall_mem_singleton]
    exact ⟨hl, hnew, hout⟩
  | next hnew hout hrefers _ ih =>
    rw [List.forall_mem_cons]
    refine ⟨⟨hl, hnew, hout⟩, fun k hk => ?_⟩
    obtain ⟨hk, hknew, hkout⟩ := ih (hrefers.holds hc) k hk
    exact ⟨hk, hknew, fun hin => hkout (List.mem_cons_of_mem _ hin)⟩

theorem Walks.nodup (h : Walks scopes w inside l path again) (hl : scopes.Holds l) : path.Nodup := by
  induction h with
  | known => exact List.nodup_nil
  | again => exact List.nodup_nil
  | last => exact List.nodup_singleton _
  | next _ _ hrefers hrest ih =>
    rw [List.nodup_cons]
    refine ⟨fun hmem => ?_, ih (hrefers.holds hc)⟩
    exact (hrest.fresh hc (hrefers.holds hc) _ hmem).2.2 List.mem_cons_self

omit hc in
theorem Walks.start (h : Walks scopes w inside l path again) :
    w.isSettled l = true ∨ l ∈ path ∨ (again = some l ∧ l.key ∈ inside) := by
  cases h with
  | known h => exact .inl h
  | again _ hin => exact .inr (.inr ⟨rfl, hin⟩)
  | last => exact .inr (.inl List.mem_cons_self)
  | next => exact .inr (.inl List.mem_cons_self)

theorem Walks.closed (h : Walks scopes w inside l path again) (hl : scopes.Holds l) {k other : Located Typedef}
    (hk : k ∈ path) (hother : scopes.Refers k other) :
    w.isSettled other = true ∨ other ∈ path ∨ other.key ∈ inside := by
  induction h with
  | known => cases hk
  | again => cases hk
  | last _ _ hlast =>
    cases List.mem_singleton.1 hk
    exact absurd hother (hlast _)
  | @next inside l next path again hnew hout hrefers hrest ih =>
    have hcloses : w.isSettled other = true ∨ other ∈ path ∨ other.key ∈ l.key :: inside := by
      rcases List.mem_cons.1 hk with rfl | hk
      · cases hc.refers_unique hrefers hother
        exact hrest.start.imp_right (Or.imp_right And.right)
      · exact ih (hrefers.holds hc) hk
    rcases hcloses with hknown | hmem | hin
    · exact .inl hknown
    · exact .inr (.inl (List.mem_cons_of_mem _ hmem))
    · rcases List.mem_cons.1 hin with hkey | hin
      · cases (hother.holds hc).eq_of_key_eq hl hkey
        exact .inr (.inl List.mem_cons_self)
      · exact .inr (.inr hin)

theorem Walks.leads (h : Walks scopes w inside l path (some r)) (hl : scopes.Holds l) :
    (r = l ∨ scopes.Leads l r) ∧ (∀ k ∈ path, scopes.Leads k r) ∧ scopes.Holds r ∧ (r ∈ path ∨ r.key ∈ inside) := by
  generalize hagain : some r = again at h
  induction h with
  | known => cases hagain
  | again _ hin =>
    cases hagain
    exact ⟨.inl rfl, List.forall_mem_nil _, hl, .inr hin⟩
  | last => cases hagain
  | @next inside l next path again _ _ hrefers _ ih =>
    obtain ⟨hnext, hpath, hr, hmem⟩ := ih (hrefers.holds hc) hagain
    have hleads : scopes.Leads l r := by
      rcases hnext with rfl | hnext
      · exact .single hrefers
      · exact .head hrefers hnext
    refine ⟨.inr hleads, List.forall_mem_cons.2 ⟨hleads, hpath⟩, hr, ?_⟩
    rcases hmem with hmem | hin
    · exact .inl (List.mem_cons_of_mem _ hmem)
    · rcases List.mem_cons.1 hin with hkey | hin
      · cases hr.eq_of_key_eq hl hkey
        exact .inl List.mem_cons_self
      · exact .inr hin

theorem Accounts.leads (h : Accounts scopes w recursions complaints) (hl : scopes.Holds l)
    (hsettled : w.isSettled l = true) (hleads : scopes.Leads l k) : w.isSettled k = true := by
  induction hleads with
  | single hrefers => exact h.closed _ _ hl hsettled hrefers
  | tail hleads hrefers ih => exact h.closed _ _ (Leads.holds hc hleads) ih hrefers

theorem Walks.loops (h : Walks scopes w inside l path again) (hl : scopes.Holds l)
    (haccounts : Accounts scopes w recursions complaints) (hk : k ∈ path) (hloop : scopes.Leads k k) :
    ∃ r, again = some r ∧ scopes.Leads k r := by
  induction h generalizing k with
  | known => cases hk
  | again => cases hk
  | last _ _ hlast =>
    cases List.mem_singleton.1 hk
    obtain ⟨other, hother, _⟩ := Relation.TransGen.head'_iff.1 hloop
    exact absurd hother (hlast other)
  | @next inside l next path again hnew hout hrefers hrest ih =>
    have hnext := hrefers.holds hc
    rcases List.mem_cons.1 hk with rfl | hk
    · have hback : scopes.Leads next k := Leads.back hc hloop (.single hrefers)
      rcases hrest.start with hsettled | hmem | ⟨hagain, _⟩
      · -- whatever is known to lead to the type would have settled it
        rw [haccounts.leads hc hnext hsettled hback] at hnew
        cases hnew
      · obtain ⟨r, hagain, hleads⟩ := ih hnext hmem (hback.tail hrefers)
        exact ⟨r, hagain, .head hrefers hleads⟩
      · exact ⟨next, hagain, .single hrefers⟩
    · exact ih hnext hk hloop

theorem Records.isSettled_iff (h : Records scopes w path again w') (hwalks : Walks scopes w [] l path again)
    (hl : scopes.Holds l) (hk : scopes.Holds k) : w'.isSettled k = true ↔ w.isSettled k = true ∨ k ∈ path := by
  have hagain : ∀ r ∈ again, r ∈ path := by
    rintro r hr
    rw [Option.mem_def] at hr
    subst hr
    exact (hwalks.leads hc hl).2.2.2.resolve_right List.not_mem_nil
  rw [h.settled, List.mem_map]
  refine or_congr_right ⟨?_, fun hmem => ⟨k, List.mem_append_right _ hmem, rfl⟩⟩
  rintro ⟨k', hmem, hkey⟩
  have hpath : k' ∈ path := by
    rcases List.mem_append.1 hmem with hmem | hmem
    · exact hagain k' (Option.mem_toList.1 hmem)
    · exact hmem
  cases (hwalks.fresh hc hl k' hpath).1.eq_of_key_eq hk hkey
  exact hpath

theorem filter_isSettled_perm (h : Records scopes w path again w') (hwalks : Walks scopes w [] l path again)
    (hl : scopes.Holds l) : ((scopes.firsts Typedef).filter w'.isSettled).Perm
      ((scopes.firsts Typedef).filter w.isSettled ++ path) := by
  have hfresh := hwalks.fresh hc hl
  rw [List.perm_ext_iff_of_nodup (hc.nodup_firsts.filter _)]
  · intro k
    rw [List.mem_append, List.mem_filter, List.mem_filter, hc.mem_firsts_iff]
    constructor
    · rintro ⟨hk, hsettled⟩
      exact ((h.isSettled_iff hc hwalks hl hk).1 hsettled).imp_left (And.intro hk)
    · rintro (⟨hk, hsettled⟩ | hmem)
      · exact ⟨hk, (h.isSettled_iff hc hwalks hl hk).2 (.inl hsettled)⟩
      · have hk := (hfresh k hmem).1
        exact ⟨hk, (h.isSettled_iff hc hwalks hl hk).2 (.inr hmem)⟩
  · refine (hc.nodup_firsts.filter _).append (hwalks.nodup hc hl) ?_
    intro k hk hmem
    have hknown := (List.mem_filter.1 hk).2
    rw [(hfresh k hmem).2.1] at hknown
    cases hknown

theorem Accounts.walk (h : Accounts scopes w recursions complaints) (hl : scopes.Holds l)
    (hwalks : Walks scopes w [] l path again) (hrecords : Records scopes w path again w') :
    Accounts scopes w' (recursions ++ again.toList) complaints where
  closed := by
    intro k other hk hsettled hrefers
    rw [hrecords.isSettled_iff hc hwalks hl (hrefers.holds hc)]
    rcases (hrecords.isSettled_iff hc hwalks hl hk).1 hsettled with hknown | hmem
    · exact .inl (h.closed k other hk hknown hrefers)
    · exact (hwalks.closed hc hl hmem hrefers).imp_right fun hpath => hpath.resolve_right List.not_mem_nil
  recursive := by
    rw [List.forall_mem_append]
    constructor
    · intro r hr
      obtain ⟨hholds, hsettled, hloop⟩ := h.recursive r hr
      exact ⟨hholds, (hrecords.isSettled_iff hc hwalks hl hholds).2 (.inl hsettled), hloop⟩
    · intro r hr
      cases Option.mem_toList.1 hr
      obtain ⟨_, hpath, hholds, hmem⟩ := hwalks.leads hc hl
      have hmem := hmem.resolve_right List.not_mem_nil
      exact ⟨hholds, (hrecords.isSettled_iff hc hwalks hl hholds).2 (.inr hmem), hpath r hmem⟩
  apart := by
    rw [List.pairwise_append]
    refine ⟨h.apart, ?_, fun r hr r' hr' hleads => ?_⟩
    · cases again with
      | none => exact .nil
      | some r => exact List.pairwise_singleton _ _
    · -- everything on a cycle of which something is remembered was remembered before the walk
      cases Option.mem_toList.1 hr'
      obtain ⟨hholds, hsettled, _⟩ := h.recursive r hr
      have hmem := (hwalks.leads hc hl).2.2.2.resolve_right List.not_mem_nil
      have hnew := (hwalks.fresh hc hl r' hmem).2.1
      rw [h.leads hc hholds hsettled hleads] at hnew
      cases hnew
  complete := by
    intro k hk hsettled hloop
    rcases (hrecords.isSettled_iff hc hwalks hl hk).1 hsettled with hknown | hmem
    · obtain ⟨r, hr, hleads⟩ := h.complete k hk hknown hloop
      exact ⟨r, List.mem_append_left _ hr, hleads⟩
    · obtain ⟨r, rfl, hleads⟩ := hwalks.loops hc hl h hmem hloop
      exact ⟨r, List.mem_append_right _ List.mem_cons_self, hleads⟩
  problems := by
    -- the types on the walk are new, so none of their problems was counted before
    have hpath := (filter_isSettled_perm hc hrecords hwalks hl).filterMap scopes.complaintOf?
    have hbefore := h.problems
    rw [List.perm_iff_count] at hpath hbefore ⊢
    intro d
    specialize hpath d
    specialize hbefore d
    rw [hrecords.problems]
    simp only [List.filterMap_append, List.map_append, List.count_append] at hpath hbefore ⊢
    omega

theorem Accounts.eq_of_leads (h : Accounts scopes w recursions complaints) {r' : Located Typedef} (hr : r ∈ recursions)
    (hr' : r' ∈ recursions) (hleads : scopes.Leads r r') : r = r' := by
  -- types on cycles lead back to where they are come from, so it does not matter which of the two was reported first
  have hapart : recursions.Pairwise fun r r' => ¬ scopes.Leads r r' ∧ ¬ scopes.Leads r' r :=
    h.apart.imp_of_mem fun {k k'} _ hk' hnot => ⟨hnot, fun hback => hnot (Leads.back hc (h.recursive k' hk').2.2 hback)⟩
  have : Std.Symm fun r r' => ¬ scopes.Leads r r' ∧ ¬ scopes.Leads r' r := ⟨fun _ _ hnot => hnot.symm⟩
  by_contra hne
  exact (hapart.forall hr hr' hne).1 hleads

theorem Accounts.existsUnique (h : Accounts scopes w recursions complaints) (hl : scopes.Holds l)
    (hsettled : w.isSettled l = true) (hloop : scopes.Leads l l) :
    ∃! r, r ∈ recursions ∧ scopes.Leads l r ∧ scopes.Leads r l := by
  obtain ⟨r, hr, hleads⟩ := h.complete l hl hsettled hloop
  refine ⟨r, ⟨hr, hleads, Leads.back hc hloop hleads⟩, ?_⟩
  rintro r' ⟨hr', _, hback⟩
  exact h.eq_of_leads hc hr' hr (hback.trans hleads)

omit hc in
theorem Accounts.nodup (h : Accounts scopes w recursions complaints) : recursions.Nodup := by
  refine h.apart.imp_of_mem fun {r r'} _ hr' hnot heq => hnot ?_
  rw [heq]
  exact (h.recursive r' hr').2.2

theorem Accounts.exists_way (h : Accounts scopes w recursions complaints)
    (hsettled : ∀ l ∈ scopes.firsts Typedef, w.isSettled l = true) (hnil : w.about Finding.isAboutType = [])
    (hl : scopes.Holds l) : ∃ hops base, scopes.Way l.context l.definition.type hops base := by
  have hproblems := h.problems
  rw [hnil, List.filter_eq_self.2 hsettled, List.nil_perm, List.append_eq_nil_iff, List.append_eq_nil_iff,
    List.map_eq_nil_iff, List.filterMap_eq_nil_iff] at hproblems
  obtain ⟨hrecursions, hcomplaints, _⟩ := hproblems
  refine exists_way_of_forall hc hl (fun k hk hloop => ?_) fun k hk hdangles => ?_
  · obtain ⟨r, hr, _⟩ := h.complete k hk (hsettled k (hc.mem_firsts_iff.2 hk)) hloop
    rw [hrecursions] at hr
    cases hr
  · have hnone := hcomplaints k (hc.mem_firsts_iff.2 hk)
    unfold complaintOf? at hnone
    rw [hc.complaint?_eq_some_iff.2 ⟨hdangles, rfl⟩] at hnone
    cases hnone

end

theorem accounts_empty (scopes : Scopes) : Accounts scopes .empty [] [] where
  closed := fun _ _ _ h => nomatch h
  recursive := List.forall_mem_nil _
  apart := .nil
  complete := fun _ _ h => nomatch h
  problems := by
    have hnone : (scopes.firsts Typedef).filter Work.empty.isSettled = [] :=
      List.filter_eq_nil_iff.2 fun _ _ h => nomatch h
    rw [hnone]
    rfl

structure Tells (scopes : Scopes) (w w' : Work) (more : List Diagnostic) : Prop where
  accounts : ∀ recursions complaints, Accounts scopes w recursions complaints →
    ∃ recursions', Accounts scopes w' recursions' (complaints ++ more)
  kept : ∀ l, w.isSettled l = true → w'.isSettled l = true

theorem Tells.refl (scopes : Scopes) (w : Work) : Tells scopes w w [] where
  accounts := by
    intro recursions complaints h
    rw [List.append_nil]
    exact ⟨recursions, h⟩
  kept := fun _ h => h

theorem Tells.trans {w'' : Work} {more more' : List Diagnostic} (h : Tells scopes w w' more)
    (h' : Tells scopes w' w'' more') : Tells scopes w w'' (more ++ more') where
  accounts := by
    intro recursions complaints haccounts
    obtain ⟨recursions', haccounts'⟩ := h.accounts _ _ haccounts
    rw [← List.append_assoc]
    exact h'.accounts _ _ haccounts'
  kept := fun l hl => h'.kept l (h.kept l hl)

theorem tells_of_types_eq {more : List Diagnostic} (htypes : w'.types = w.types)
    (hproblems : w'.about Finding.isAboutType = w.about Finding.isAboutType ++ more) : Tells scopes w w' more := by
  have hsettled : w'.isSettled = w.isSettled := by
    funext l
    unfold Work.isSettled
    rw [htypes]
  refine ⟨fun recursions complaints h => ⟨recursions, ?_⟩, fun l hl => by rw [hsettled]; exact hl⟩
  obtain ⟨hclosed, hrecursive, hapart, hcomplete, hbefore⟩ := h
  rw [← hsettled] at hclosed hrecursive hcomplete hbefore
  refine ⟨hclosed, hrecursive, hapart, hcomplete, ?_⟩
  rw [hproblems]
  simpa only [List.append_assoc] using hbefore.append_right more

theorem tells_report {finding : Finding} (h : finding.isAboutType = false) :
    Tells scopes w (w.report context finding) [] :=
  tells_of_types_eq rfl (by rw [w.about_report_of_eq_false context h, List.append_nil])

theorem tells_reportAll {findings : List Finding} (h : ∀ finding ∈ findings, finding.isAboutType = false) :
    Tells scopes w (w.reportAll context findings) [] :=
  tells_of_types_eq rfl (by rw [w.about_reportAll context h, List.append_nil])

theorem tells_note (n : Note) : Tells scopes w (w.note n) [] :=
  tells_of_types_eq rfl (List.append_nil _).symm

theorem tells_walk (hc : scopes.Coherent) (hl : scopes.Holds l) (hwalks : Walks scopes w [] l path again)
    (hrecords : Records scopes w path again w') : Tells scopes w w' [] where
  accounts := by
    intro recursions complaints h
    rw [List.append_nil]
    exact ⟨_, h.walk hc hl hwalks hrecords⟩
  kept := fun k hk => (hrecords.settled k).2 (.inl hk)

theorem tells_typeOfTypedef (hc : scopes.Coherent) (hl : scopes.Holds l) (isThere : l ∈ scopes.definitions Typedef) :
    Tells scopes w (scopes.typeOfTypedef [] l isThere w).2 []
      ∧ (scopes.typeOfTypedef [] l isThere w).2.isSettled l = true := by
  obtain ⟨path, again, hwalks, hrecords⟩ := (walks_typing hc w).2 [] l isThere
  refine ⟨tells_walk hc hl hwalks hrecords, (hrecords.isSettled_iff hc hwalks hl hl).2 ?_⟩
  exact hwalks.start.imp_right fun h => h.resolve_right fun hin => List.not_mem_nil hin.2

theorem tells_typeOf (hc : scopes.Coherent) (declared : Restrictions) :
    Tells scopes w (scopes.typeOf [] context reference declared w).2 (scopes.complaint? context reference).toList := by
  by_cases hfound : ∃ l : Located Typedef, isBuiltin reference = false ∧ scopes.resolve context reference = .ok l
  · obtain ⟨l, hb, hresolve⟩ := hfound
    obtain ⟨path, again, hwalks, hrecords⟩ := (walks_typing hc w).1 [] context reference declared l hb hresolve
    rw [complaint?_of_resolve_eq_ok hresolve]
    exact tells_walk hc (hc.holds_of_resolve hresolve) hwalks hrecords
  · obtain ⟨htypes, hproblems⟩ := typeOf_of_forall_ne (fun l hb hresolve => hfound ⟨l, hb, hresolve⟩) [] declared w
    exact tells_of_types_eq htypes hproblems

end Scopes

end Yang

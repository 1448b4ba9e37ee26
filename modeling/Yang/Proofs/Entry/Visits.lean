import Yang.Proofs.Entry.Trail

/-!
This module contains the visits of a walk when an entry gets further children: they are those that there were before and
those of what is added.
-/

namespace Yang.Entry

theorem visitsAll_append (above : List EntryHead) (entries others : List Entry) :
    visitsAll above (entries ++ others) = visitsAll above entries ++ visitsAll above others := by
  induction entries with
  | nil => rw [List.nil_append, visitsAll, List.nil_append]
  | cons e rest ih => rw [List.cons_append, visitsAll, visitsAll, ih, List.append_assoc]

theorem visitsAll_perm_of_visits {above : List EntryHead} {before after : List Entry} {e e' : Entry}
    {more : List Visit} (h : (visits above e').Perm (visits above e ++ more)) :
    (visitsAll above (before ++ e' :: after)).Perm (visitsAll above (before ++ e :: after) ++ more) := by
  rw [visitsAll_append, visitsAll_append, visitsAll, visitsAll, List.append_assoc]
  refine .append_left _ ?_
  calc (visits above e' ++ visitsAll above after).Perm ((visits above e ++ more) ++ visitsAll above after) :=
        h.append_right _
    _ = visits above e ++ (more ++ visitsAll above after) := List.append_assoc _ _ _
    _ |>.Perm (visits above e ++ (visitsAll above after ++ more)) := List.perm_append_comm.append_left _
    _ = visits above e ++ visitsAll above after ++ more := (List.append_assoc _ _ _).symm

theorem visits_regrow {e d : Entry} {names : List String} (hd : e.descend? names = some d) (above : List EntryHead) :
    ∃ above', ∀ grown, (visits above (e.regrow (d.children ++ grown) names)).Perm
      (visits above e ++ visitsAll above' grown) := by
  induction names generalizing e above with
  | nil =>
    obtain ⟨head, children⟩ := e
    cases hd
    refine ⟨head :: above, fun grown => ?_⟩
    rw [regrow, visits, visits, Entry.children, visitsAll_append, List.cons_append]
  | cons name rest ih =>
    obtain ⟨c, hc, hrest⟩ := Option.bind_eq_some_iff.1 hd
    obtain ⟨above', hregrow⟩ := ih hrest (e.head :: above)
    refine ⟨above', fun grown => ?_⟩
    obtain ⟨before, after, heq, _, hgrown⟩ := regrowIn_eq_of_named? (d.children ++ grown) rest hc
    obtain ⟨head, children⟩ := e
    change children = before ++ c :: after at heq
    change regrowIn (d.children ++ grown) name rest children = _ at hgrown
    rw [regrow, visits, visits, hgrown, heq, List.cons_append]
    exact (visitsAll_perm_of_visits (hregrow grown)).cons _

theorem visitsAll_regrowIn {entries : List Entry} {name : String} {names : List String} {e d : Entry}
    (he : named? name entries = some e) (hd : e.descend? names = some d) (above : List EntryHead) :
    ∃ above', ∀ grown, (visitsAll above (regrowIn (d.children ++ grown) name names entries)).Perm
      (visitsAll above entries ++ visitsAll above' grown) := by
  obtain ⟨above', hregrow⟩ := visits_regrow hd above
  refine ⟨above', fun grown => ?_⟩
  obtain ⟨before, after, heq, _, hgrown⟩ := regrowIn_eq_of_named? (d.children ++ grown) names he
  rw [hgrown, heq]
  exact visitsAll_perm_of_visits (hregrow grown)

end Yang.Entry

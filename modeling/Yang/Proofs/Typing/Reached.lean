import Yang.Proofs.Tree.Adds
import Yang.Proofs.Typing.Nearest
import Yang.Tree.Graft

/-!
This module contains what can have been found out when a type is resolved, in the middle of other resolutions as well,
and the proof that it makes no difference to what the resolution comes to.
-/

namespace Yang

namespace Scopes

variable {scopes : Scopes} {w w' : Work}

/--
The resolutions that begin while one begins with what was found out so far: any that is inside of no definition, that of
the type that a derived type refers to, and so on inside of each other.
-/
inductive Begins (scopes : Scopes) (w : Work) : List DefinitionKey → Context → String → Restrictions → Prop
  | anew (context : Context) (reference : String) (declared : Restrictions) :
    Begins scopes w [] context reference declared
  | settle {scope : Scope} {l : Located Typedef} (hs : scope ∈ scopes) (hl : l ∈ scope.firsts Typedef)
    (hnew : w.types.lookup l.key = none) :
    Begins scopes w [l.key] l.context l.definition.type l.definition.restrictions
  | enter {inside : List DefinitionKey} {context : Context} {reference : String} {declared : Restrictions}
    {found : Located Typedef} (hbegins : Begins scopes w inside context reference declared)
    (h : isBuiltin reference = false) (hfound : scopes.resolve context reference = .ok found)
    (hnew : w.types.lookup found.key = none) (hout : inside.contains found.key = false) :
    Begins scopes w (found.key :: inside) found.context found.definition.type found.definition.restrictions

/--
What can have been found out at some time while trees are built. A resolution that has ended may have been inside of
others that go on.
-/
inductive Reached (scopes : Scopes) : Work → Prop
  | empty : Reached scopes .empty
  | report {w : Work} (hw : Reached scopes w) (context : Context) (finding : Finding) :
    Reached scopes (w.report context finding)
  | note {w : Work} (hw : Reached scopes w) (n : Note) : Reached scopes (w.note n)
  | resolve {w : Work} (hw : Reached scopes w) {inside : List DefinitionKey} {context : Context} {reference : String}
    {declared : Restrictions} (h : Begins scopes w inside context reference declared) :
    Reached scopes (scopes.typeOf inside context reference declared w).2
  | settle {w : Work} (hw : Reached scopes w) {scope : Scope} {l : Located Typedef} (hs : scope ∈ scopes)
    (hl : l ∈ scope.firsts Typedef) :
    Reached scopes (scopes.typeOfTypedef [] l (mem_definitions_of_mem_firsts hs hl) w).2

theorem Begins.leadsTo (hc : scopes.Coherent) {inside : List DefinitionKey} {context : Context} {reference : String}
    {declared : Restrictions} (h : Begins scopes w inside context reference declared) :
    scopes.LeadsTo inside (scopes.Denotes context reference declared) := by
  induction h with
  | anew => exact leadsTo_nil _
  | settle hs hl _ => exact LeadsTo.enter (hc.holds_of_mem_firsts hs hl) (leadsTo_nil _)
  | enter _ h hfound _ _ ih => exact LeadsTo.enter (hc.holds_of_resolve hfound) (ih.defines h hfound)

theorem Reached.faithful (hc : scopes.Coherent) (hw : Reached scopes w) : w.Faithful scopes := by
  induction hw with
  | empty => exact Work.faithful_empty scopes
  | report _ context finding ih => exact ih.report context finding
  | note _ n ih => exact ih.note n
  | resolve _ h ih => exact ((settles hc ih).1 _ _ _ _ (h.leadsTo hc)).faithful
  | settle _ hs hl ih => exact (settles_typeOfTypedef hc ih _ (hc.holds_of_mem_firsts hs hl)).faithful

theorem Reached.typeOf_eq_some_iff (hc : scopes.Coherent) (hw : Reached scopes w) {inside : List DefinitionKey}
    {context : Context} {reference : String} {declared : Restrictions}
    (h : Begins scopes w inside context reference declared) (type : ResolvedType) :
    (scopes.typeOf inside context reference declared w).1 = some type
      ↔ scopes.Denotes context reference declared type :=
  ((settles hc (hw.faithful hc)).1 _ _ _ _ (h.leadsTo hc)).result type

theorem Reached.reportAll (hw : Reached scopes w) (context : Context) (findings : List Finding) :
    Reached scopes (w.reportAll context findings) := by
  induction findings generalizing w with
  | nil =>
    unfold Work.reportAll
    rw [List.map_nil, List.append_nil]
    exact hw
  | cons finding rest ih =>
    have hrest := ih (hw.report context finding)
    unfold Work.reportAll Work.report at hrest
    dsimp only at hrest
    rw [List.append_assoc] at hrest
    exact hrest

section

variable {owner : Owner}

theorem Reached.makeHead (hw : Reached scopes w) (owner : Owner) (spot : Spot) (context : Context) (node : Node) :
    Reached scopes (scopes.makeHead spot context owner node w).2 := by
  obtain ⟨w₁, hreport, hcases⟩ := makeHead_cases scopes spot context owner node w
  have hstart : Reached scopes w₁ := by
    rcases hreport with rfl | rfl
    · exact hw
    · exact hw.report _ _
  rcases hcases with ⟨_, heq⟩ | ⟨reference, declared, _, heq⟩
  · rw [heq]
    exact hstart
  · rw [heq]
    exact hstart.resolve (.anew _ _ _)

theorem Adds.reached {inside : List DefinitionKey} {spot : Spot} {context : Context} {nodes : List Node}
    {children children' : List Entry} (h : Adds scopes owner inside spot context nodes children w children' w')
    (hw : Reached scopes w) : Reached scopes w' := by
  induction h with
  | nil => exact hw
  | unresolved _ _ ih => exact ih (hw.report _ _)
  | recursive _ _ _ ih => exact ih (hw.report _ _)
  | expanded _ _ _ _ ihinner ihmore => exact ihmore (ihinner hw)
  | misplaced _ _ _ ih => exact ih (hw.report _ _)
  | @placed inside spot context node rest children w head w₁ inner w₂ children' w' _ _ hhead _ _ ihinner ihmore =>
    have hmade := hw.makeHead owner spot context node
    rw [hhead] at hmade
    exact ihmore ((ihinner hmade).reportAll _ _)

theorem Reached.addDocuments (hw : Reached scopes w) (spot : Spot) (contexts : List Context) (children : List Entry) :
    Reached scopes (scopes.addDocuments spot owner contexts children w).2 := by
  induction contexts generalizing children w with
  | nil => exact hw
  | cons context rest ih => exact ih ((adds_addNodes _ _ _ _ _ _ _ _).reached hw) _

end

theorem Reached.settleAll (hw : Reached scopes w) {scope : Scope} (hs : scope ∈ scopes) (found : List (Located Typedef))
    (isThere : ∀ l ∈ found, l ∈ scopes.definitions Typedef) (hfound : ∀ l ∈ found, l ∈ scope.firsts Typedef) :
    Reached scopes (scopes.settle found isThere w) := by
  induction found generalizing w with
  | nil => exact hw
  | cons l rest ih =>
    rw [List.forall_mem_cons] at hfound
    exact ih (hw.settle hs hfound.1) _ hfound.2

theorem Reached.buildAll (hw : Reached scopes w) (list : List Scope) (isThere : ∀ scope ∈ list, scope ∈ scopes) :
    Reached scopes (scopes.buildAll list isThere w).2 := by
  induction list generalizing w with
  | nil => exact hw
  | cons scope rest ih =>
    apply ih
    exact (hw.addDocuments _ _ _).settleAll (isThere scope List.mem_cons_self) _ _ fun _ hl => hl

theorem Reached.round (hw : Reached scopes w) (grafts : List Graft) (forest : Forest) :
    Reached scopes (scopes.round grafts forest w).2.2 := by
  induction grafts generalizing forest w with
  | nil => exact hw
  | cons graft rest ih =>
    unfold Scopes.round
    split
    · exact ih (hw.report _ _) _
    · exact ih hw _
    · exact ih ((adds_addNodes _ _ _ _ _ _ _ _).reached (hw.note _)) _

theorem Reached.graftAll (hw : Reached scopes w) (grafts : List Graft) (forest : Forest) :
    Reached scopes (scopes.graftAll grafts forest w).2 := by
  fun_induction Scopes.graftAll scopes grafts forest w with
  | case1 grafts forest w r hlt ih => exact ih (hw.round grafts forest)
  | case2 grafts forest w r hle =>
    have hround := hw.round grafts forest
    suffices ∀ (waiting : List Graft) (w : Work), Reached scopes w → Reached scopes
        (waiting.foldl (fun w g => w.report g.context (.targetNotFound g.augment.target)) w) from this _ _ hround
    intro waiting
    induction waiting with
    | nil => exact fun _ h => h
    | cons graft rest ih => exact fun _ h => ih _ (h.report _ _)

theorem reached_forest (scopes : Scopes) : Reached scopes scopes.forest.2 :=
  (Reached.empty.buildAll _ _).graftAll _ _

end Scopes

end Yang

import Yang.Proofs.ModuleSet.Process
import Yang.Proofs.Typing.Reached

/-!
This module contains what references to types come to in the modules of a set: what was found out before makes no
difference, and the type is the one that the way from the reference describes.
-/

namespace Yang.ModuleSet

/--
What is found out while the trees of a set are built is reached step by step. And whatever is found out by then, and
whatever the resolution is inside of, a reference to a type comes to what the way from it amounts to.
-/
theorem typeOf_gathered (store : Store) (files : Files) :
    let scopes := (gather store files).1
    scopes.Reached scopes.forest.2
      ∧ ∀ w inside context reference declared, scopes.Reached w → scopes.Begins w inside context reference declared →
        scopes.Amounts context reference declared (scopes.typeOf inside context reference declared w).1
        ∧ ∀ w' inside', scopes.Reached w' → scopes.Begins w' inside' context reference declared →
          (scopes.typeOf inside' context reference declared w').1
            = (scopes.typeOf inside context reference declared w).1 := by
  have hc := (sound_gather store files).coherent
  refine ⟨Scopes.reached_forest _, ?_⟩
  intro w inside context reference declared hw hbegins
  have hdenotes := hw.typeOf_eq_some_iff hc hbegins
  refine ⟨Scopes.amounts_of_denotes hc hdenotes, ?_⟩
  intro w' inside' hw' hbegins'
  apply Option.ext
  intro type
  rw [hdenotes type]
  exact hw'.typeOf_eq_some_iff hc hbegins' type

def typedModule : Module :=
  ⟨"m", "u", ⟨"p", none, none, none, none, [], [],
    [⟨.free, "a", "p:b", none, none, none⟩, ⟨.free, "b", "a", none, none, none⟩,
      ⟨⟨none, none, some "1..8", none, none⟩, "short", "string", none, some "x", none⟩],
    [], [], [], "m.yaml"⟩⟩

def typed : ModuleSet :=
  ⟨⟨[], [typedModule], [], [], []⟩, none⟩

def typedContext : Context :=
  ⟨.main typedModule, "m", [("p", "m")]⟩

theorem typeOf_gathered_sample :
    let scopes := (gather typed.store .empty).1
    let w := (scopes.typeOf [] typedContext "a" .free .empty).2
    scopes.Reached w ∧ scopes.Begins w [] typedContext "p:short" .free
      ∧ scopes.Amounts typedContext "p:short" .free (scopes.typeOf [] typedContext "p:short" .free w).1
      ∧ ∀ w' inside', scopes.Reached w' → scopes.Begins w' inside' typedContext "p:short" .free →
        (scopes.typeOf inside' typedContext "p:short" .free w').1
          = (scopes.typeOf [] typedContext "p:short" .free w).1 :=
  have hw := Scopes.Reached.empty.resolve (.anew typedContext "a" .free)
  have hbegins := .anew typedContext "p:short" .free
  ⟨hw, hbegins, (typeOf_gathered typed.store .empty).2 _ _ _ _ _ hw hbegins⟩

end Yang.ModuleSet

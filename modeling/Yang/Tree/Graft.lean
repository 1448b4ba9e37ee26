import Yang.Tree.Build

/-!
This module contains the grafting of augments. An augment waits as long as its target is not there, because another
augment may bring it; when a round grafts none of those that wait, the rest have no target.
-/

namespace Yang

/--
An augment in a document.
-/
structure Graft where
  context : Context
  augment : Augment
  deriving Repr, Inhabited

structure Target where
  module : String
  names : List String
  deriving DecidableEq, Repr, Inhabited

abbrev Forest : Type := List Entry

namespace Scopes

def grafts (scopes : Scopes) : List Graft :=
  scopes.flatMap fun scope =>
    scope.contexts.flatMap fun context =>
      context.document.body.augments.map fun augment => ⟨context, augment⟩

def moduleOf (scopes : Scopes) (graft : Graft) (segment : Reference) : Except Finding Module :=
  match graft.context.moduleOf? segment.prefixId with
  | none => .error (.unknownTargetPrefix (segment.prefixId.getD "") graft.augment.target)
  | some name =>
    match scopes.scope? name with
    | none => .error (.targetUnavailable graft.augment.target name)
    | some scope => .ok scope.main

def follow (scopes : Scopes) (graft : Graft) (entry : Entry) (names : List String) :
    List Reference → Except Finding (Option (Entry × List String))
  | [] => .ok (some (entry, names.reverse))
  | segment :: rest =>
    match scopes.moduleOf graft segment with
    | .error finding => .error finding
    | .ok m =>
      match entry.child? segment.name with
      | none => .ok none
      | some child =>
        -- an entry of the same name that another module put there does not count
        if child.head.uri = m.uri then follow scopes graft child (segment.name :: names) rest else .ok none

def target (scopes : Scopes) (forest : Forest) (graft : Graft) : Except Finding (Option (Entry × Target)) :=
  match graft.augment.segments.map Reference.ofText with
  | [] => .error (.targetNoContainer graft.augment.target)
  | segment :: rest =>
    match scopes.moduleOf graft segment with
    | .error finding => .error finding
    | .ok m =>
      match Entry.named? m.name forest with
      | none => .ok none
      | some tree =>
        match scopes.follow graft tree [] (segment :: rest) with
        | .error finding => .error finding
        | .ok none => .ok none
        | .ok (some (entry, names)) =>
          if entry.head.kind.isLeaf then
            .error (.targetNoContainer graft.augment.target)
          else
            .ok (some (entry, ⟨m.name, names⟩))

def spotAlong (spot : Spot) (entry : Entry) : List String → Spot
  | [] => spot
  | name :: rest =>
    match entry.child? name with
    | some child => spotAlong (spot.down child.head) child rest
    | none => spot

def spotOf (forest : Forest) (target : Target) : Spot :=
  match Entry.named? target.module forest with
  | some tree => spotAlong ⟨tree.head, []⟩ tree target.names
  | none => default

def apply (scopes : Scopes) (forest : Forest) (graft : Graft) (entry : Entry) (target : Target) (w : Work) :
    Forest × Work :=
  let w := w.note (.augmenting graft.augment.target graft.context.document.name)
  let owner := ((scopes.scope? graft.context.owner).map (fun scope => scope.main.asOwner)).getD default
  let (children, w) :=
    scopes.addNodes [] (spotOf forest target) graft.context owner graft.augment.nodes entry.children w
  (Entry.regrowIn children target.module target.names forest, w)

/--
Graft the augments whose targets are there, and keep those that wait.
-/
def round (scopes : Scopes) (grafts : List Graft) (forest : Forest) (w : Work) : List Graft × Forest × Work :=
  match grafts with
  | [] => ([], forest, w)
  | graft :: rest =>
    match scopes.target forest graft with
    | .error finding => round scopes rest forest (w.report graft.context finding)
    | .ok none =>
      let (waiting, forest, w) := round scopes rest forest w
      (graft :: waiting, forest, w)
    | .ok (some (entry, target)) =>
      let (forest, w) := scopes.apply forest graft entry target w
      round scopes rest forest w

theorem length_round_le (scopes : Scopes) (grafts : List Graft) (forest : Forest) (w : Work) :
    (scopes.round grafts forest w).1.length ≤ grafts.length := by
  induction grafts generalizing forest w with
  | nil => simp [round]
  | cons graft rest ih =>
    unfold round
    split
    · exact Nat.le_succ_of_le (ih _ _)
    · exact Nat.succ_le_succ (ih _ _)
    · exact Nat.le_succ_of_le (ih _ _)

def graftAll (scopes : Scopes) (grafts : List Graft) (forest : Forest) (w : Work) : Forest × Work :=
  let r := scopes.round grafts forest w
  if r.1.length < grafts.length then
    graftAll scopes r.1 r.2.1 r.2.2
  else
    (r.2.1, r.1.foldl (fun w g => w.report g.context (.targetNotFound g.augment.target)) r.2.2)
termination_by grafts.length

/--
The trees of all modules, with everything that was found out on the way.
-/
def forest (scopes : Scopes) : Forest × Work :=
  let (trees, w) := scopes.buildAll scopes (fun _ h => h) .empty
  scopes.graftAll scopes.grafts trees w

end Scopes

end Yang

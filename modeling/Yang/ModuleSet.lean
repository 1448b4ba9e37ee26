import Yang.Scope.Gather
import Yang.Tree.Graft

/-!
This module contains sets of modules: documents are loaded into a set, the set is processed once, and then it has a
tree for every module.
-/

namespace Yang

structure Outcome where
  problems : List Diagnostic
  forest : Forest
  deriving Repr, Inhabited

structure ModuleSet where
  store : Store
  outcome : Option Outcome
  deriving Repr, Inhabited

inductive Failure where
  | refused (refusal : Refusal)
  | frozen
  | unprocessed
  | notIncluded (name : String)
  deriving DecidableEq, Repr, Inhabited

namespace ModuleSet

def empty (searchPath : List Path) : ModuleSet :=
  ⟨.empty searchPath, none⟩

def isProcessed (set : ModuleSet) : Bool :=
  set.outcome.isSome

def loading {α : Type} (set : ModuleSet) (load : Store → Store.Loading α) : Except Failure α × ModuleSet :=
  let (outcome, store) := load set.store
  (outcome.mapError .refused, { set with store := store })

def whileOpen {α : Type} (set : ModuleSet) (load : Store → Store.Loading α) : Except Failure α × ModuleSet :=
  if set.isProcessed then (.error .frozen, set) else set.loading load

def read (set : ModuleSet) (files : Files) (name : String) : Except Failure (List Document) × ModuleSet :=
  set.whileOpen (fun store => store.read files name)

def parse (set : ModuleSet) (text source : String) : Except Failure (List Document) × ModuleSet :=
  set.whileOpen (fun store => store.parse text source)

def findModule (set : ModuleSet) (files : Files) (name : String) :
    Except Failure (Option Module) × ModuleSet :=
  set.loading (fun store => store.findModule files name)

def findSubmodule (set : ModuleSet) (files : Files) (name : String) :
    Except Failure (Option Submodule) × ModuleSet :=
  set.loading (fun store => store.findSubmodule files name)

def locate (set : ModuleSet) (files : Files) (name : String) : Except Failure (Option Path) :=
  (Store.locate set.store.searchPath files name).mapError fun fault => .refused (.breakdown (.path fault))

/--
The scopes of the modules of a store and of those that they need, in the order of the module names.
-/
def gather (store : Store) (files : Files) : Scopes × Gathering :=
  let (scopes, g) := Gathering.all files [] [] ⟨store, [], none⟩
  (scopes.mergeSort (fun a b => decide (a.main.name ≤ b.main.name)), g)

/--
Resolve all modules of a set, and return all problems. A set is processed once; later on the problems are the same.
-/
def process (set : ModuleSet) (files : Files) : Except Failure (List Diagnostic) × ModuleSet :=
  match set.outcome with
  | some outcome => (.ok outcome.problems, set)
  | none =>
    let (scopes, g) := gather set.store files
    match g.breakdown with
    | some cause => (.error (.refused (.breakdown cause)), { set with store := g.store })
    | none =>
      let (forest, w) := scopes.forest
      let problems := g.problems ++ w.problems
      let journal := g.store.journal ++ w.notes ++ [.processed forest.length problems.length]
      (.ok problems, ⟨{ g.store with journal := journal }, some ⟨problems, forest⟩⟩)

def toEntry (set : ModuleSet) (name : String) : Except Failure Entry :=
  match set.outcome with
  | none => .error .unprocessed
  | some outcome =>
    match Entry.named? name outcome.forest with
    | some tree => .ok tree
    | none => .error (.notIncluded name)

def topLevelEntries (set : ModuleSet) : Except Failure (List Entry) :=
  set.store.topLevel.mapM (fun m => set.toEntry m.name)

end ModuleSet

def Failure.message : Failure → String
  | refused (.problem d) => d.message
  | refused (.breakdown cause) => cause.message
  | frozen => "model set is frozen once processed"
  | unprocessed => "process() must run before to_entry()"
  | notIncluded name => "module " ++ name ++ " is not part of this model set"

end Yang

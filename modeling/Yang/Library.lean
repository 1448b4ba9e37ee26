import Yang.ModuleSet

/-!
This module contains the two ways for other programs to get trees: all modules of some sources, or one module by its
name.
-/

namespace Yang

inductive Halt where
  | problems (list : List Diagnostic)
  | failed (failure : Failure)
  deriving DecidableEq, Repr, Inhabited

def defaultModulesFile : String := "MODULES" ++ schemaSuffix

def Failure.halt : Failure → Halt
  | refused (.problem d) => .problems [d]
  | failure => .failed failure

namespace ModuleSet

def readAll (set : ModuleSet) (files : Files) : List String → List Diagnostic × Option Failure × ModuleSet
  | [] => ([], none, set)
  | name :: rest =>
    match set.read files name with
    | (.ok _, set) => readAll set files rest
    | (.error (.refused (.problem d)), set) =>
      let (more, failure, set) := readAll set files rest
      (d :: more, failure, set)
    | (.error failure, set) => ([], some failure, set)

def readSources (set : ModuleSet) (files : Files) (sources : List String) : Except Halt Unit × ModuleSet :=
  match set.readAll files sources with
  | (_, some failure, set) => (.error failure.halt, set)
  | ([], none, set) => (.ok (), set)
  | (problems, none, set) => (.error (.problems problems), set)

def settle (set : ModuleSet) (files : Files) : Except Halt Unit × ModuleSet :=
  match set.process files with
  | (.ok [], set) => (.ok (), set)
  | (.ok problems, set) => (.error (.problems problems), set)
  | (.error failure, set) => (.error failure.halt, set)

def note (set : ModuleSet) (n : Note) : ModuleSet :=
  { set with store := set.store.note n }

def fallBack (set : ModuleSet) (files : Files) (name : String) : Except Failure Unit × ModuleSet :=
  match set.locate files defaultModulesFile with
  | .error failure => (.error failure, set)
  | .ok none => (.ok (), set)
  | .ok (some _) =>
    let (outcome, set) := (set.note (.fallingBack name defaultModulesFile)).read files defaultModulesFile
    (outcome.map (fun _ => ()), set)

def ensure (set : ModuleSet) (files : Files) (name : String) : Except Halt Unit × ModuleSet :=
  if (set.store.module? name).isSome then
    (.ok (), set)
  else
    match set.fallBack files name with
    | (.error failure, set) => (.error failure.halt, set)
    | (.ok (), set) =>
      match set.findModule files name with
      | (.error failure, set) => (.error failure.halt, set)
      | (.ok none, set) => (.error (.problems [⟨"", .moduleNotFound name⟩]), set)
      | (.ok (some _), set) => (.ok (), set)

end ModuleSet

def loadModules (files : Files) (searchPath : List Path) (sources : List String) : Except Halt ModuleSet :=
  match (ModuleSet.empty searchPath).readSources files sources with
  | (.error halt, _) => .error halt
  | (.ok (), set) =>
    match set.settle files with
    | (.error halt, _) => .error halt
    | (.ok (), set) => .ok set

/--
The tree of one module, and the set it was found in. The sources are read first.
-/
def getModule (files : Files) (searchPath : List Path) (name : String) (sources : List String) :
    Except Halt Entry × ModuleSet :=
  match (ModuleSet.empty searchPath).readSources files sources with
  | (.error halt, set) => (.error halt, set)
  | (.ok (), set) =>
    match set.ensure files name with
    | (.error halt, set) => (.error halt, set)
    | (.ok (), set) =>
      match set.settle files with
      | (.error halt, set) => (.error halt, set)
      | (.ok (), set) => ((set.toEntry name).mapError .failed, set)

end Yang

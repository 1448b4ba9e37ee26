import Yang.CommandLine

/-!
This module contains the program: it takes in the files that its command may look at, does what the arguments ask for,
and writes what comes of it.
-/

namespace Yang.Main

def directoryCode : UInt32 := 21

def takeIn (files : Files) (path : Path) : IO Files := do
  if path.isAbsolute || path.names.isEmpty then
    return files
  try
    let bytes ← IO.FS.readBinFile (Text.characters path.text)
    return (files.write path bytes.toList).2
  catch e =>
    match e with
    | .inappropriateType _ code _ =>
      return if code = directoryCode then (files.makeDirectory path).2 else files
    | _ => return files

partial def gather (lookedAt : Files → List Path) (known : List Path) (files : Files) : IO Files := do
  let fresh := (lookedAt files).eraseDups.filter (fun path => !known.contains path)
  if fresh.isEmpty then
    return files
  let mut files := files
  for path in fresh do
    files ← takeIn files path
  gather lookedAt (known ++ fresh) files

partial def readAll (stream : IO.FS.Stream) (before : ByteArray) : IO ByteArray := do
  let chunk ← stream.read 65536
  if chunk.isEmpty then return before else readAll stream (before ++ chunk)

def writeAll (contents : List (Site × List UInt8)) : IO Unit :=
  for (site, bytes) in contents do
    IO.FS.writeBinFile (Text.characters ("/".intercalate site)) ⟨bytes.toArray⟩

end Yang.Main

open Yang in
def main (arguments : List String) : IO UInt32 := do
  let arguments := arguments.map Text.ofCharacters
  let input ←
    if Command.readsInput arguments then
      Main.readAll (← IO.getStdin) ByteArray.empty
    else
      pure ByteArray.empty
  let input := input.toList
  let path := (← IO.getEnv "SCHEMATREE_PATH").map Text.ofCharacters
  let files ← Main.gather (Command.lookedAt path arguments input) [] .empty
  let result := Command.execute .builtin files path arguments input
  Main.writeAll (files.written result.files)
  IO.print (Text.characters result.output)
  IO.eprint (Text.characters result.errors)
  for escape in result.escaped do
    IO.eprintln (Text.characters (Text.escapeHalves escape.message))
  return result.exitCode.toUInt32

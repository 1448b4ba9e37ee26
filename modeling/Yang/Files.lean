import Yang.Path
import Yang.Text.Newline
import Yang.Text.Quoted
import Yang.Text.Utf8

/-!
This module contains the files of a working directory. What is outside of it is left out: a path that starts at a root,
or leads above the directory, leads to no file, whatever there may be. Symbolic links are left out too, and so are files
that cannot be read or written for want of permission or because a device fails. A path is at fault only for its names,
or for what is there or not there.
-/

namespace Yang

abbrev Site : Type := List String

/--
Files with their contents, and directories. A directory is listed with all directories above it but for the
working directory.
-/
structure Files where
  contents : List (Site × List UInt8)
  directories : List Site
  deriving Repr, Inhabited

inductive PathFault where
  | nul
  | absent
  | occupied
  | notDirectory
  | isDirectory
  | tooLong
  deriving DecidableEq, Repr, Inhabited

def PathFault.message : PathFault → String
  | nul => "embedded null byte"
  | absent => "No such file or directory"
  | occupied => "File exists"
  | notDirectory => "Not a directory"
  | isDirectory => "Is a directory"
  | tooLong => "File name too long"

def PathFault.number? : PathFault → Option Nat
  -- refused before any system sees the path
  | nul => none
  | absent => some 2
  | occupied => some 17
  | notDirectory => some 20
  | isDirectory => some 21
  | tooLong => some 36

structure FileFault where
  cause : PathFault
  path : Path
  deriving DecidableEq, Repr, Inhabited

def FileFault.message (fault : FileFault) : String :=
  match fault.cause.number? with
  | none => fault.cause.message
  | some number =>
    "[Errno " ++ toString number ++ "] " ++ fault.cause.message ++ ": " ++ Text.quoted fault.path.text

namespace Files

def nameLimit : Nat := 255

def pathLimit : Nat := 4095

def isLong (name : String) : Bool :=
  nameLimit < (Text.characters name).utf8ByteSize

def empty : Files :=
  ⟨[], []⟩

def content? (files : Files) (site : Site) : Option (List UInt8) :=
  files.contents.lookup site

def isDirectory (files : Files) (site : Site) : Bool :=
  site.isEmpty || files.directories.contains site

def outside : List String → PathFault
  | [] => .isDirectory
  | name :: rest =>
    if name = ".." then outside rest
    else if isLong name then .tooLong
    else .absent

def walk (files : Files) (site : Site) : List String → Except PathFault Site
  | [] => .ok site
  | name :: rest =>
    if files.isDirectory site then
      if name = ".." then
        if site.isEmpty then .error (outside rest) else walk files site.dropLast rest
      else if isLong name then
        .error .tooLong
      else
        walk files (site ++ [name]) rest
    else if (files.content? site).isSome then
      .error .notDirectory
    else
      .error .absent

def site (files : Files) (path : Path) : Except PathFault Site :=
  if path.hasNul then .error .nul
  else if pathLimit < (Text.characters path.text).utf8ByteSize then .error .tooLong
  else if path.isAbsolute then .error (outside path.names)
  else walk files [] path.names

def isTooLong (files : Files) (path : Path) : Bool :=
  match files.site path with
  | .error .tooLong => true
  | _ => false

def file? (files : Files) (path : Path) : Option Site :=
  match files.site path with
  | .ok site => if (files.content? site).isSome then some site else none
  | .error _ => none

def isFile (files : Files) (path : Path) : Bool :=
  (files.file? path).isSome

def decodeText (bytes : List UInt8) : Except Text.Utf8.Fault String :=
  (Text.Utf8.decode bytes).map (fun s => String.ofList (Text.universalNewlines s.toList))

def addDirectory (files : Files) (site : Site) : Files :=
  if files.isDirectory site then files else { files with directories := files.directories ++ [site] }

def writeSite (files : Files) (site : Site) (bytes : List UInt8) : Files :=
  { files with contents := (site, bytes) :: files.contents.filter (fun f => f.1 != site) }

abbrev Change : Type := Except FileFault Unit × Files

def makeDirectory (files : Files) (path : Path) : Change :=
  go files path.stages
where
  go (files : Files) : List Path → Change
    | [] => if files.isFile path then (.error ⟨.occupied, path⟩, files) else (.ok (), files)
    | stage :: rest =>
      match files.site stage with
      | .error cause => (.error ⟨cause, stage⟩, files)
      -- a file on the way is in the way of what comes behind it
      | .ok site => go (if (files.content? site).isSome then files else files.addDirectory site) rest

def openForWriting (files : Files) (path : Path) : Except FileFault Site :=
  match files.site path with
  | .error cause => .error ⟨cause, path⟩
  | .ok site => if files.isDirectory site then .error ⟨.isDirectory, path⟩ else .ok site

def write (files : Files) (path : Path) (bytes : List UInt8) : Change :=
  match files.makeDirectory { path with names := path.names.dropLast } with
  | (.error fault, files) => (.error fault, files)
  | (.ok (), files) =>
    match files.openForWriting path with
    | .error fault => (.error fault, files)
    | .ok site => (.ok (), files.writeSite site bytes)

def delete (files : Files) (path : Path) : Change :=
  match files.openForWriting path with
  | .error fault => (.error fault, files)
  | .ok site =>
    if (files.content? site).isSome then
      (.ok (), { files with contents := files.contents.filter (fun f => f.1 != site) })
    else
      (.error ⟨.absent, path⟩, files)

def written (before after : Files) : List (Site × List UInt8) :=
  after.contents.filter (fun f => before.content? f.1 != some f.2)

theorem isSome_content?_of_file? {files : Files} {path : Path} {site : Site}
    (h : files.file? path = some site) : (files.content? site).isSome = true := by
  unfold file? at h
  split at h
  · split at h
    · cases h
      assumption
    · cases h
  · cases h

end Files

end Yang

import FiniteAutomata.CommandLine.Run

/-!
# CommandLine/Folder — files held in memory

A `Folder` holds files under relative paths; the directories on the way to them are there too. Paths
are walked part by part: one that is only a dot stays, two dots go back up, and an empty one asks
for a directory. Outside the folder there is nothing but the directories above it.
-/

namespace FiniteAutomata

namespace CommandLine

/-- **Files under relative paths**, each given by its parts. -/
structure Folder where
  files : List (List String × List UInt8)

namespace Folder

/-- The parts of a path between its slashes. -/
def splitPath (path : String) : List String := path.splitOn "/"

/-- The parts of a path that name something. -/
def pathParts (path : String) : List String :=
  (splitPath path).filter fun p => p != "" && p != "."

/-- The folder with these files under these paths, a later one in place of an earlier. -/
def ofList (files : List (String × List UInt8)) : Folder :=
  ⟨(files.map fun f => (pathParts f.1, f.2)).reverse⟩

/-- Some file lies below the directory. -/
def isDirectory (F : Folder) (path : List String) : Bool :=
  path.isEmpty || F.files.any fun f => path.isPrefixOf f.1 && path.length < f.1.length

/-- Walks from a directory, `above` so many levels outside the folder, along the parts of a path. -/
def walk (F : Folder) (place : List String) (above : Nat) :
    List String → Except ReadFailure (List UInt8)
  | [] => .error .isDirectory
  | part :: rest =>
    if pathLimits.1 < part.utf8ByteSize then .error .tooLong
    else if part = "" ∨ part = "." then walk F place above rest
    else if part = ".." then
      if place = [] then walk F [] (above + 1) rest else walk F place.dropLast above rest
    else if 0 < above then .error .missing
    else
      let path := place ++ [part]
      if F.isDirectory path then walk F path above rest
      else match F.files.find? fun f => f.1 == path with
        | some f => if rest = [] then .ok f.2 else .error .notDirectory
        | none => .error .missing

/-- **What is in the file at a path.** -/
def read (F : Folder) (path : String) : Except ReadFailure (List UInt8) :=
  if path = "" then .error .missing
  else if pathLimits.2 < path.utf8ByteSize then .error .tooLong
  else match splitPath path with
    | "" :: rest => if rest.all (· == "") then .error .isDirectory else walk F [] 1 rest
    | parts => walk F [] 0 parts

end Folder

end CommandLine

end FiniteAutomata

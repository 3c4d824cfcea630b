/-
# A folder of files

Files by their names, relative to the folder that they are in. A name is a
path that is walked step by step: empty steps and single dots in it do not
count, two dots lead upwards, and a walk stops where there is nothing, at a
file that is not the last step, and at a step with too long a name. Of what is
outside of the folder only a little is known: a few directories at the top of
all, and the file among them that is always empty.

Key definitions: `Folder`, `Folder.Place`, `Folder.look`, `Folder.walk`,
`Folder.find`.
-/
import ChronoId.Settings.Environment

namespace ChronoId

/-- The files of a folder. -/
structure Folder where
  files : List (String × ByteArray)

namespace Folder

/-- The steps of a path that count. -/
def steps (path : String) : List String :=
  (path.splitOn "/").filter fun step => step ≠ "" ∧ step ≠ "."

/-- The most bytes that a step may have. -/
def maxStep : Nat := 255

/-- The most bytes that a path may have. -/
def maxPath : Nat := 4095

/-- Where a walk is. -/
inductive Place where
  /-- Some steps into the folder. -/
  | inside (here : List String)
  /-- In a directory that the folder is in. -/
  | above
  /-- Some steps from the top of all directories. -/
  | fromTop (here : List String)

namespace Place

/-- The place that two dots lead to. -/
def parent : Place → Place
  | inside [] => above
  | inside here => inside here.dropLast
  | above => above
  | fromTop here => fromTop here.dropLast

end Place

/-- What a step leads to. -/
inductive Entry where
  | file (bytes : ByteArray)
  | directory (place : Place)

/-- The directories at the top that are always there. -/
def topDirectories : List String :=
  ["bin", "dev", "etc", "home", "proc", "sys", "tmp", "usr", "var"]

/-- What is found from the top under some steps. -/
def lookFromTop : List String → Option Entry
  | ["dev", "null"] => some (.file .empty)
  | [step] => if topDirectories.contains step then some (.directory (.fromTop [step])) else none
  | _ => none

/-- What a step from a place leads to, if there is anything. -/
def look (folder : Folder) : Place → String → Option Entry
  | .inside here, step =>
    let here := here ++ [step]
    match folder.files.find? (fun f => steps f.1 = here) with
    | some f => some (.file f.2)
    | none =>
      if folder.files.any (fun f => here.isPrefixOf (steps f.1)) then
        some (.directory (.inside here))
      else none
  | .above, _ => none
  | .fromTop here, step => lookFromTop (here ++ [step])

/-- What is found at the end of a walk from a place. -/
def walk (folder : Folder) : Place → List String → FileAnswer
  | _, [] => .unreadable .isDirectory
  | place, step :: rest =>
    if step = ".." then folder.walk place.parent rest
    else if maxStep < step.utf8ByteSize then .unreadable .nameTooLong
    else
      match folder.look place step with
      | some (.file bytes) => if rest.isEmpty then .contents bytes else .unreadable .throughFile
      | some (.directory place) => folder.walk place rest
      | none => .missing

/-- Whether a path starts at the top of all directories. -/
def isAbsolute (path : String) : Bool := path.toList.head? = some '/'

/-- The number of bytes of a path without what does not count. -/
def pathSize (path : String) : Nat :=
  (String.intercalate "/" (steps path)).utf8ByteSize + if isAbsolute path then 1 else 0

/-- What is found under a path. -/
def find (folder : Folder) (path : String) : FileAnswer :=
  if path.toList.contains '\x00' then .unreadable .nulInName
  else if maxPath < pathSize path then .unreadable .nameTooLong
  else folder.walk (if isAbsolute path then .fromTop [] else .inside []) (steps path)

end Folder
end ChronoId

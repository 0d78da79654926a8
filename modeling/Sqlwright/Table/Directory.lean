/-!
# A file tree without files

What opening a path gives where there are the usual directories and no files: the reason why there
is no text to read.
-/

namespace Sqlwright.Directory

/-- There is nothing at the path. -/
def notFound : String := "No such file or directory (os error 2)"

/-- There is a directory at the path. -/
def isDirectory : String := "Is a directory (os error 21)"

/-- A part of the path, or all of it, is longer than names may be. -/
def tooLong : String := "File name too long (os error 36)"

/-- The path cannot be handed to the system. -/
def hasNul : String := "file name contained an unexpected NUL byte"

/-- The directories of the tree: the working directory and those above it, the root, and the ones
directly below the root. -/
inductive Place where
  | working
  | root
  | belowRoot
  deriving DecidableEq, Repr

/-- The names of the directories below the root. -/
def rootNames : List String :=
  ["bin", "boot", "dev", "etc", "home", "lib", "media", "mnt", "opt", "proc", "root", "run", "sbin",
   "srv", "sys", "tmp", "usr", "var"]

/-- The directory above a directory. -/
def Place.parent : Place → Place
  | .working => .working
  | .root | .belowRoot => .root

/-- Follows the parts of a path from a directory. -/
def follow : Place → List String → String
  | _, [] => isDirectory
  | place, part :: rest =>
    if 255 < part.utf8ByteSize then tooLong
    else if part = "" ∨ part = "." then follow place rest
    else if part = ".." then follow place.parent rest
    else if place = .root ∧ part ∈ rootNames then follow .belowRoot rest
    else notFound

/-- Why a path has no text. -/
def reason (path : String) : String :=
  if path.toList.contains '\x00' then hasNul
  else if path = "" then notFound
  else if 4096 ≤ path.utf8ByteSize then tooLong
  else follow (if path.toList.head? = some '/' then .root else .working) (path.splitOn "/")

end Sqlwright.Directory

import CrashDump.Bytes.Buffer

/-!
# Files

A `Disk` says where files are and what reading each path gives, and that is all a snapshot needs to
know of them. A path is a text whose parts are separated by slashes.
-/
namespace CrashDump

inductive FileFault where
  | notFound
  | alreadyExists
  | notDirectory
  | isDirectory
  | other (text : String)
  deriving DecidableEq, Repr

namespace FileFault

def message : FileFault → String
  | notFound => "No such file or directory (os error 2)"
  | alreadyExists => "File exists (os error 17)"
  | notDirectory => "Not a directory (os error 20)"
  | isDirectory => "Is a directory (os error 21)"
  | other text => text

/-- What is wrong when a file stands where a directory is to be made: at the end of the path, or once
a directory above it had to be made, it is in the way; else it is no directory to go through. -/
def inTheWay (atEnd made : Bool) : FileFault :=
  if atEnd || made then .alreadyExists else .notDirectory

end FileFault

structure Disk where
  read : String → Except FileFault Buffer
  /-- Whether a file is there, which may still not be one that can be read. -/
  isFile : String → Bool := fun path => (read path).toOption.isSome

namespace FilePath

def parts (path : String) : List String := (path.toList.splitOn '/').map String.ofList

def isAbsolute (path : String) : Bool := path.toList.head? == some '/'

/-- A name inside a directory; one slash stands between them. -/
def join (directory name : String) : String :=
  if isAbsolute name ∨ directory = "" then name
  else if directory.toList.getLast? = some '/' then directory ++ name
  else directory ++ "/" ++ name

/-- Parts that name something; a dot names the directory it stands in. -/
def named (path : String) : List String :=
  (parts path).filter fun part => part ≠ "" ∧ part ≠ "."

/-- The last part of a path, unless that is the root or a step up. -/
def fileName? (path : String) : Option String :=
  match (named path).getLast? with
  | none | some ".." => none
  | some name => some name

/-- The directory that holds what the path names; the present one if the path does not say. -/
def parent (path : String) : String :=
  let directories := (named path).dropLast
  let inside := String.intercalate "/" directories
  if isAbsolute path then "/" ++ inside
  else if directories.isEmpty then "." else inside

/-- A path cut after each of its parts in turn, from the shortest to the whole. -/
def ancestors (path : String) : List String :=
  let start := if isAbsolute path then "/" else ""
  let parts := named path
  (List.range parts.length).map fun n => start ++ String.intercalate "/" (parts.take (n + 1))

end FilePath

end CrashDump

import CrashDump.Disk

/-!
# Files in memory

A `FileTree` holds files and directories under relative paths. Making a directory makes those above
it too, a file is written into directories that are made for it, and a step up is taken from the
directory that the path has led to.
-/
namespace CrashDump

/-- Files with their bytes, and the directories besides the topmost one. -/
structure FileTree where
  files : List (List String × Buffer)
  directories : List (List String)

namespace FileTree

def empty : FileTree := ⟨[], []⟩

inductive Node where
  | file (data : Buffer)
  | directory

def node? (tree : FileTree) (path : List String) : Option Node :=
  match tree.files.find? fun entry => entry.1 == path with
  | some entry => some (.file entry.2)
  | none => if path.isEmpty ∨ tree.directories.contains path then some .directory else none

/-- Follows the parts of a path from a directory. Each part but the last must be a directory. -/
def follow (tree : FileTree) (place : List String) : List String → Except FileFault Node
  | [] =>
    match tree.node? place with
    | some node => .ok node
    | none => .error .notFound
  | part :: rest =>
    match tree.node? place with
    | none => .error .notFound
    | some (.file _) => .error .notDirectory
    | some .directory =>
      if part = "" ∨ part = "." then follow tree place rest
      else if part = ".." then follow tree place.dropLast rest
      else follow tree (place ++ [part]) rest

/-- What a path leads to. Of the places that start at the root only the root itself is known. -/
def find (tree : FileTree) (path : String) : Except FileFault Node :=
  if path = "" then .error .notFound
  else if FilePath.isAbsolute path then
    if (FilePath.named path).isEmpty then .ok .directory else .error .notFound
  else tree.follow [] (FilePath.parts path)

def holdsFile (tree : FileTree) (path : String) : Bool :=
  match tree.find path with
  | .ok (.file _) => true
  | _ => false

/-- Makes the directories that lead on from `place` where they are not there yet, and says where
they lead. Those made before a failure stay. -/
def makeDirectories (tree : FileTree) (place : List String) (made : Bool) :
    List String → FileTree × Except FileFault (List String)
  | [] => (tree, .ok place)
  | part :: rest =>
    if part = ".." then makeDirectories tree place.dropLast made rest
    else
      let next := place ++ [part]
      match tree.node? next with
      | some .directory => makeDirectories tree next made rest
      | some (.file _) => (tree, .error (.inTheWay rest.isEmpty made))
      | none => makeDirectories { tree with directories := next :: tree.directories } next true rest

/-- Makes the directory of a path and those above it. -/
def makeDirectory (tree : FileTree) (path : String) : FileTree × Except FileFault (List String) :=
  tree.makeDirectories [] false (FilePath.named path)

/-- Opens a file of a directory for more to be written to it, which makes both if need be. -/
def append (tree : FileTree) (directory name : String) : FileTree × Except FileFault Unit :=
  match tree.makeDirectory directory with
  | (tree, .error fault) => (tree, .error fault)
  | (tree, .ok place) =>
    let path := place ++ [name]
    match tree.node? path with
    | some (.file _) => (tree, .ok ())
    | some .directory => (tree, .error .isDirectory)
    | none => ({ tree with files := (path, ByteArray.empty) :: tree.files }, .ok ())

/-- Writes a file, in directories that are made for it. What has no name is not written. -/
def write (tree : FileTree) (path : String) (data : Buffer) : FileTree :=
  match FilePath.fileName? path, tree.makeDirectory (FilePath.parent path) with
  | some name, (tree, .ok place) => { tree with files := (place ++ [name], data) :: tree.files }
  | _, (tree, _) => tree

/-- The tree holding files written one after another under the given paths. -/
def ofList (files : List (String × Buffer)) : FileTree :=
  files.foldl (fun tree entry => tree.write entry.1 entry.2) empty

def disk (tree : FileTree) : Disk where
  read path :=
    match tree.find path with
    | .ok (.file data) => .ok data
    | .ok .directory => .error .isDirectory
    | .error fault => .error fault
  isFile := tree.holdsFile

end FileTree
end CrashDump

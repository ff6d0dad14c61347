import CrashDump.Fault
import CrashDump.Text.Blank
import CrashDump.Text.Numeral

/-!
# Options of a load

All that a load depends on besides the dump and the disk.
-/
namespace CrashDump

structure LoadOptions where
  /-- The directories that are searched for module images, in order. -/
  imagePaths : List String
  /-- How many frames are recovered for each thread at most. -/
  maxFrames : Nat
  deriving DecidableEq, Repr

namespace LoadOptions

/-- No directories and 256 frames. -/
def standard : LoadOptions := ⟨[], 256⟩

/-- The directories in a text that separates them by colons. -/
def directoriesOf (text : String) : List String :=
  ((text.toList.splitOn ':').map String.ofList).filter fun directory => directory ≠ ""

/-- A limit of frames: a number of 64 bits. -/
def frameLimit (text : String) : Except SnapshotFault Nat :=
  match Numeral.unsigned? 10 UInt64.size (Text.trim text.toList) with
  | some limit => .ok limit
  | none => .error (.badArgument (.frameCount text))

/-- The defaults with what the environment sets. -/
def ofEnvironment (env : Environment) : Except SnapshotFault LoadOptions := do
  let imagePaths := ((env.get? Environment.imagePath).map directoriesOf).getD standard.imagePaths
  match env.get? Environment.maxFrames with
  | none => .ok ⟨imagePaths, standard.maxFrames⟩
  | some text => .ok ⟨imagePaths, ← frameLimit text⟩

end LoadOptions
end CrashDump

import CrashDump.Module.Image

/-!
# Modules

An executable or a library as it was loaded in the process, with what identifies its build and, if
one was found, its image on disk.
-/
namespace CrashDump

structure Module where
  path : String
  base : Address
  size : UInt64
  /-- The name of the build. -/
  identity : String
  /-- Time stamp and size as one word. -/
  codeId : String
  codeView : Option CodeView
  checksum : UInt32
  timeStamp : UInt32
  version : Option String
  image : Option Image
  deriving DecidableEq, Repr

namespace Module

/-- The part of a path after the last slash or backslash. -/
def nameOf (path : String) : String :=
  String.ofList (path.toList.reverse.takeWhile fun c => c ≠ '/' ∧ c ≠ '\\').reverse

def name (m : Module) : String := nameOf m.path

def range (m : Module) : Interval := Interval.upTo m.base m.size.toNat

def contains (m : Module) (a : Address) : Bool := m.range.contains a

/-- Where the module holds code: where its image says, or anywhere if that is not known. -/
def executableRanges (m : Module) : List Interval :=
  match m.image with
  | none => [m.range]
  | some image => if image.executable.isEmpty then [m.range] else image.executable

def text (m : Module) : String := m.range.text ++ " " ++ m.identity ++ " " ++ m.path

end Module

/-- The modules of a process by ascending base. -/
structure ModuleList where
  modules : List Module
  deriving DecidableEq, Repr

namespace ModuleList

def empty : ModuleList := ⟨[]⟩

def ofList (modules : List Module) : ModuleList :=
  ⟨modules.mergeSort fun m n => m.base ≤ n.base⟩

/-- The last module that starts at or before an address, if it reaches the address. -/
def at? (list : ModuleList) (a : Address) : Option Module :=
  ((list.modules.takeWhile fun m => m.base ≤ a).getLast?).filter fun m => m.contains a

def pathAt? (list : ModuleList) (a : Address) : Option String := (list.at? a).map Module.path

/-- Where any module holds code, joined where it overlaps or touches. -/
def executableRanges (list : ModuleList) : List Interval :=
  Interval.union (list.modules.flatMap Module.executableRanges)

/-- Keeps the first module of each path that is not among `seen`, and reports the others. -/
def keepFirst : List String → List Module → List Module × List Diagnostic
  | _, [] => ([], [])
  | seen, m :: rest =>
    if seen.contains m.path then
      let (kept, reports) := keepFirst seen rest
      (kept, .duplicateModule m.path m.base :: reports)
    else
      let (kept, reports) := keepFirst (m.path :: seen) rest
      (m :: kept, reports)

/-- One module for each path, the one with the lowest base. -/
def withoutRepeats (list : ModuleList) : ModuleList × List Diagnostic :=
  let (kept, reports) := keepFirst [] list.modules
  (⟨kept⟩, reports)

end ModuleList
end CrashDump

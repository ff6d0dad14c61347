import CrashDump.Diagnostic
import CrashDump.Memory.Intervals
import CrashDump.Module.CodeView
import CrashDump.Object.Parse

/-!
# Images of modules

The file on disk a module was loaded from, looked for by name in some directories. A file with the
right name but another build is refused, so the code it describes is the code that ran.
-/
namespace CrashDump

structure Image where
  path : String
  identifier : Option (List UInt8)
  /-- Where the code of the file was loaded. -/
  executable : List Interval
  deriving DecidableEq, Repr

namespace Image

/-- Where a section of a file is when the headers of the file are at `base`; nowhere if it would
wrap. -/
def loaded? (file : ObjectFile) (base : Address) (code : CodeSection) : Option Interval :=
  let slide := base.value - file.preferredAddress
  Interval.ofLength? ⟨code.address + slide⟩ code.size.toNat

/-- The code of a file that lies inside the module it is loaded as, in ascending order. -/
def codeRanges (file : ObjectFile) (base : Address) (size : UInt64) : List Interval :=
  let module := (Interval.ofLength? base size.toNat).getD ⟨base, Address.top⟩
  let loaded := (file.code.filter fun code => code.size ≠ 0).filterMap (loaded? file base)
  let clipped := (loaded.map fun range => range.clip module).filter fun range => !range.isEmpty
  Interval.distinct (Interval.sort clipped)

/-- Whether a file with the given identifier may stand for a module. A module whose identifier is
known accepts no file without one. -/
def accepts (expected found : Option (List UInt8)) : Bool :=
  match expected, found with
  | none, _ => true
  | some expected, some found => Identity.agree expected found
  | some _, none => false

section Search

variable (reader : Buffer → Except ObjectFault ObjectFile) (disk : Disk)

/-- The file at a path as it is loaded as a module, its bytes understood by `reader`. -/
def parseWith (path : String) (base : Address) (size : UInt64) : Except SnapshotFault Image :=
  match disk.read path with
  | .error fault => .error (.unreadable fault)
  | .ok data =>
    match reader data with
    | .error fault => .error (.badArgument (.image path fault))
    | .ok file => .ok ⟨path, file.identifier, codeRanges file base size⟩

/-- The image that a file gives for a module, or what to report about the file. -/
def ofFileWith (name : String) (expected : Option (List UInt8)) (base : Address) (size : UInt64)
    (path : String) : Except Diagnostic Image :=
  match parseWith reader disk path base size with
  | .error fault => .error (.imageUnreadable path fault.message)
  | .ok image =>
    if accepts expected image.identifier then .ok image else .error (.imageMismatch name path)

/-- The first file of the given name in the directories that may stand for the module, and a report
on each one before it. -/
def locateWith (name : String) (expected : Option (List UInt8)) (base : Address) (size : UInt64) :
    List String → Option Image × List Diagnostic
  | [] => (none, [])
  | directory :: rest =>
    let path := FilePath.join directory name
    if disk.isFile path then
      match ofFileWith reader disk name expected base size path with
      | .ok image => (some image, [])
      | .error report =>
        let (found, reports) := locateWith name expected base size rest
        (found, report :: reports)
    else locateWith name expected base size rest

end Search

/-- The search through object files of all the known formats. -/
def locate (disk : Disk) (name : String) (expected : Option (List UInt8)) (base : Address)
    (size : UInt64) (directories : List String) : Option Image × List Diagnostic :=
  locateWith ObjectFile.parse disk name expected base size directories

end Image
end CrashDump

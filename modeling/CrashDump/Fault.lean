import CrashDump.Container.StreamKind
import CrashDump.Disk
import CrashDump.Environment
import CrashDump.Memory.Interval
import CrashDump.Object.Fault
import CrashDump.Register.ContextKind

/-!
# Faults

Why a dump does not load, or a question to a loaded one has no answer. Each type of fault lists
causes, and its `message` is the text shown for them.
-/
namespace CrashDump

inductive Malformed where
  | headerTooShort (size : Nat)
  | badSignature (found : UInt32)
  | directoryTruncated (count offset : UInt32)
  | streamOutside (tag offset size : UInt32) (dumpSize : Nat)
  | outside (offset length dumpSize : Nat)
  | unreadable (fault : ReadFault)
  | offsetOverflow
  | listTooShort (kind : StreamKind) (size count entrySize : Nat)
  | infoEntriesTooSmall (size : Nat)
  | infoListTooLong
  | rangeWraps (start size : Nat)
  | dataOutside (range : Interval)
  | noSystemInfo
  | contextTooShort (kind : ContextKind) (size expected : Nat)
  | described (text : String)
  deriving DecidableEq, Repr

/-- Names the missing bytes or the place beyond the end. -/
def ReadFault.message : ReadFault → String
  | badOffset offset => s!"bad offset {offset}"
  | short width left => s!"type is too big ({width}) for {left}"

namespace Malformed

def message : Malformed → String
  | headerTooShort size => s!"buffer of {size} bytes is too small for a header"
  | badSignature found =>
    "bad signature 0x" ++ Hex.fixed 8 found.toNat ++ " (expected 0x504d444d)"
  | directoryTruncated count offset =>
    s!"stream directory of {count} entries at 0x" ++ Hex.short offset.toNat ++ " is truncated"
  | streamOutside tag offset size dumpSize =>
    StreamKind.label (StreamKind.ofTag? tag) ++ " stream (type 0x" ++ Hex.short tag.toNat ++
      ") at 0x" ++ Hex.short offset.toNat ++ s!"+{size} lies outside the {dumpSize}-byte dump"
  | outside offset length dumpSize =>
    "record at 0x" ++ Hex.short offset ++
      s!" (+{length} bytes) lies outside the {dumpSize}-byte dump"
  | unreadable fault => fault.message
  | offsetOverflow => "an offset does not fit 64 bits"
  | listTooShort kind size count entrySize =>
    kind.name ++ s!" of {size} bytes cannot hold {count} entries of {entrySize} bytes"
  | infoEntriesTooSmall size => s!"MemoryInfoList entries of {size} bytes are too small"
  | infoListTooLong => "MemoryInfoList too long"
  | rangeWraps start size =>
    "memory range 0x" ++ Hex.short start ++ "+0x" ++ Hex.short size ++ " wraps the address space"
  | dataOutside range => "bytes of memory range " ++ range.text ++ " lie outside the dump"
  | noSystemInfo => "no SystemInfo stream"
  | contextTooShort kind size expected =>
    kind.name ++ s!" context of {size} bytes is shorter than the expected {expected}"
  | described text => text

end Malformed

inductive BadArgument where
  | frameCount (text : String)
  | address (text : String)
  | image (path : String) (fault : ObjectFault)
  | described (text : String)
  deriving DecidableEq, Repr

def BadArgument.message : BadArgument → String
  | frameCount text => Environment.maxFrames ++ "=" ++ text ++ " is not a frame count"
  | address text => "invalid address: " ++ text
  | image path fault => "failed to parse " ++ path ++ ": " ++ fault.message
  | described text => text

/-- An attempt to run or change a process that is no more. -/
inductive Mutation where
  | resume
  | step
  | writeMemory
  | writeRegisters
  deriving DecidableEq, Repr

def Mutation.name : Mutation → String
  | resume => "resume"
  | step => "step"
  | writeMemory => "write memory"
  | writeRegisters => "write registers"

inductive SnapshotFault where
  | malformed (fault : Malformed)
  | corruptMemoryMap (first second : Interval)
  | unsupportedArchitecture (tag : UInt16)
  | immutable (mutation : Mutation)
  | threadNotFound (thread : Nat)
  | unknownRegister (name : String)
  | frameUnavailable (thread frame : Nat)
  | registerUnavailable (name : String) (frame : Nat)
  | memoryUnavailable (address : Address) (length : Nat)
  | badArgument (fault : BadArgument)
  | unreadable (fault : FileFault)
  deriving DecidableEq, Repr

namespace SnapshotFault

def message : SnapshotFault → String
  | malformed fault => "Invalid minidump: " ++ fault.message
  | corruptMemoryMap first second =>
    "Corrupt memory map: " ++ first.text ++ " overlaps " ++ second.text
  | unsupportedArchitecture tag =>
    "Unsupported architecture: processor tag 0x" ++ Hex.fixed 4 tag.toNat
  | immutable mutation => "Cannot " ++ mutation.name ++ ": the target is a post-mortem snapshot"
  | threadNotFound thread => s!"No thread at index {thread}"
  | unknownRegister name => "Unknown register: " ++ name
  | frameUnavailable thread frame => s!"Frame {frame} is not available for thread {thread}"
  | registerUnavailable name frame =>
    "Register " ++ name ++ s!" is not recoverable in frame {frame}"
  | memoryUnavailable address length =>
    "Memory at " ++ address.text ++ s!" (+{length} bytes) was not captured"
  | badArgument fault => "Invalid argument: " ++ fault.message
  | unreadable fault => "IO error: " ++ fault.message

end SnapshotFault

/-- A fault of the bytes is a fault of the load. -/
def Malformed.lift {α : Type} (result : Except Malformed α) : Except SnapshotFault α :=
  result.mapError .malformed

end CrashDump

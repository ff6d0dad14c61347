import CrashDump.Bytes.Buffer
import CrashDump.Object.Fault

/-!
# Object files

What an object file on disk says about its image: where its parts want to be, which of them are
code, and the identifier of its build. Numbers in such files come in either byte order.
-/
namespace CrashDump

structure FileSegment where
  address : UInt64
  fileSize : UInt64
  deriving DecidableEq, Repr

structure CodeSection where
  address : UInt64
  size : UInt64
  deriving DecidableEq, Repr

structure ObjectFile where
  /-- The address the file names as the one of its headers, in formats that name one. -/
  headerAddress : Option UInt64
  segments : List FileSegment
  code : List CodeSection
  identifier : Option (List UInt8)
  deriving DecidableEq, Repr

inductive ByteOrder where
  | little
  | big
  deriving DecidableEq, Repr

/-- Where a field is and how wide it is. -/
structure FieldPlace where
  offset : Nat
  width : Nat
  deriving DecidableEq, Repr

namespace ObjectFile

/-- The number in a field; one that is not there counts as zero. -/
def field (order : ByteOrder) (data : Buffer) (place : FieldPlace) : Nat :=
  match data.slice? place.offset place.width with
  | none => 0
  | some bytes =>
    match order with
    | .little => LittleEndian.value bytes.bytes
    | .big => LittleEndian.value bytes.bytes.reverse

/-- `length` bytes of the file from `offset`. No bytes at all can be taken anywhere, even beyond the
end. -/
def part? (data : Buffer) (offset length : Nat) : Option Buffer :=
  if length = 0 then some ByteArray.empty else data.slice? offset length

/-- So many entries of one size one after another, if all of them are in the file. -/
def table? (data : Buffer) (offset count entrySize : Nat) : Option (List Buffer) :=
  (part? data offset (count * entrySize)).map fun entries =>
    (List.range count).map fun index =>
      entries.extract (index * entrySize) (index * entrySize + entrySize)

/-- Bytes without the NULs after the first one. -/
def name (bytes : List UInt8) : List UInt8 := bytes.takeWhile fun b => b != 0

/-- The address at which the headers of the file would be by preference: the one it names, or else
the lowest of a part that the file holds bytes for. -/
def preferredAddress (file : ObjectFile) : UInt64 :=
  match file.headerAddress with
  | some address => address
  | none =>
    let addresses := (file.segments.filter fun s => s.fileSize > 0).map FileSegment.address
    (addresses.min?).getD 0

end ObjectFile
end CrashDump

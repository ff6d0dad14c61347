import CrashDump.Container.Directory
import CrashDump.Text.Unicode

/-!
# The streams of a dump

Decodes the streams a snapshot is made from. A list stream is a count and that many records, with
four bytes of padding after the count if the size of the stream calls for them. Captured memory
comes from two lists: in the first each descriptor says where its bytes are, in the second the
bytes of the descriptors follow one another.
-/
namespace CrashDump

/-- A captured interval and where its bytes start in the dump. -/
structure MemoryRecord where
  range : Interval
  dataOffset : Nat
  deriving DecidableEq, Repr

namespace Container

/-- Where the records of a list stream start: the padding is there exactly if the size fits it. -/
def listStart (size needed : Nat) : Nat := if size = needed + 8 then 8 else 4

def listRecords {α : Type} [Record α] (kind : StreamKind) (stream : Buffer) :
    Except Malformed (List α) := do
  let count : UInt32 ← recordAt stream 0
  let needed ← offset (count.toNat * Record.size α)
  let _ ← offset (needed + 8)
  let start := listStart stream.size needed
  let stop ← offset (start + needed)
  if stream.size < stop then
    .error (.listTooShort kind stream.size count.toNat (Record.size α))
  else records (stream.extract start stop) count.toNat

def list {α : Type} [Record α] (c : Container) (kind : StreamKind) : Except Malformed (List α) :=
  match c.stream? kind.tag with
  | none => .ok []
  | some stream => listRecords kind stream

def threads (c : Container) : Except Malformed (List ThreadRecord) := c.list .threadList

def modules (c : Container) : Except Malformed (List ModuleRecord) := c.list .moduleList

/-- An interval of so many bytes that ends inside the address space. -/
def intervalOf (start : Address) (size : Nat) : Except Malformed Interval :=
  match Interval.ofLength? start size with
  | some range => .ok range
  | none => .error (.rangeWraps start.toNat size)

/-- The captured interval of a descriptor whose bytes are inside the dump. -/
def memoryRecord (c : Container) (descriptor : MemoryDescriptor) :
    Except Malformed MemoryRecord := do
  let range ← intervalOf ⟨descriptor.start⟩ descriptor.location.size.toNat
  let _ ← c.located descriptor.location
  .ok ⟨range, descriptor.location.offset.toNat⟩

/-- The captured intervals of `remaining` descriptors from `place` in the stream, the bytes of the
first of them at `dataOffset` in the dump. -/
def longMemoryRecords (c : Container) (stream : Buffer) :
    Nat → Nat → Nat → Except Malformed (List MemoryRecord)
  | 0, _, _ => .ok []
  | remaining + 1, place, dataOffset => do
    let descriptor : LongMemoryDescriptor ← recordAt stream place
    let range ← intervalOf ⟨descriptor.start⟩ descriptor.size.toNat
    let _ ← c.slice dataOffset descriptor.size.toNat
    let nextPlace ← offset (place + Record.size LongMemoryDescriptor)
    let nextOffset ← offset (dataOffset + descriptor.size.toNat)
    let rest ← longMemoryRecords c stream remaining nextPlace nextOffset
    .ok (⟨range, dataOffset⟩ :: rest)

def longMemory (c : Container) : Except Malformed (List MemoryRecord) :=
  match c.stream? StreamKind.memory64List.tag with
  | none => .ok []
  | some stream => do
    let header : LongMemoryHeader ← recordAt stream 0
    c.longMemoryRecords stream header.count.toNat (Record.size LongMemoryHeader)
      header.dataOffset.toNat

/-- The captured intervals of both lists, in file order. -/
def memoryRecords (c : Container) : Except Malformed (List MemoryRecord) := do
  let descriptors : List MemoryDescriptor ← c.list .memoryList
  let short ← descriptors.mapM c.memoryRecord
  let long ← c.longMemory
  .ok (short ++ long)

/-- `remaining` entries of a memory information stream from number `index` on. -/
def memoryInfoFrom (stream : Buffer) (headerSize entrySize : Nat) :
    Nat → Nat → Except Malformed (List MemoryInfo)
  | 0, _ => .ok []
  | remaining + 1, index =>
    if index * entrySize + headerSize < UInt64.size then do
      let info : MemoryInfo ← recordAt stream (index * entrySize + headerSize)
      let rest ← memoryInfoFrom stream headerSize entrySize remaining (index + 1)
      .ok (info :: rest)
    else .error .infoListTooLong

def memoryInfoEntries (stream : Buffer) : Except Malformed (List MemoryInfo) := do
  let header : MemoryInfoHeader ← recordAt stream 0
  if header.entrySize.toNat < Record.size MemoryInfo then
    .error (.infoEntriesTooSmall header.entrySize.toNat)
  else
    memoryInfoFrom stream header.headerSize.toNat header.entrySize.toNat header.count.toNat 0

def memoryInfo (c : Container) : Except Malformed (Option (List MemoryInfo)) :=
  match c.stream? StreamKind.memoryInfoList.tag with
  | none => .ok none
  | some stream => (memoryInfoEntries stream).map some

def systemInfo (c : Container) : Except Malformed (Option SystemInfo) :=
  match c.stream? StreamKind.systemInfo.tag with
  | none => .ok none
  | some stream => (recordAt stream 0).map some

/-- The miscellaneous information, if its stream is there and long enough. -/
def miscInfo? (c : Container) : Option MiscInfo :=
  (c.stream? StreamKind.miscInfo.tag).bind fun stream => (recordAt stream 0).toOption

def exception (c : Container) : Except Malformed (Option ExceptionStream) :=
  match c.stream? StreamKind.exception.tag with
  | none => .ok none
  | some stream => (recordAt stream 0).map some

def text? (c : Container) (tag : UInt32) : Option String :=
  (c.stream? tag).map fun stream => Utf8.decode stream.bytes

def dropNuls (text : List Char) : List Char :=
  (text.reverse.dropWhile fun c => c == '\x00').reverse

/-- The text at an offset: its size in bytes, then UTF-16. -/
def string (c : Container) (place : UInt32) : Except Malformed String := do
  let size : UInt32 ← recordAt c.data place.toNat
  let start ← offset (place.toNat + 4)
  let bytes ← c.slice start size.toNat
  .ok (String.ofList (dropNuls (Utf16.decode (Utf16.units bytes.bytes))))

end Container
end CrashDump

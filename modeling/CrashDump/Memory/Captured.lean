import CrashDump.Container.Streams
import CrashDump.Diagnostic
import CrashDump.Memory.Intervals
import CrashDump.Memory.Search

/-!
# Captured memory

The bytes of a process that a dump saved. A table lists the captured intervals in ascending order,
none of them overlapping another; their bytes stand in one buffer in the order in which they were
added, and the table says where. Intervals are added one at a time or built from the records of a
dump; either way one that overlaps another is refused. `segments` is the view of what is held: the
intervals with their bytes, wherever these stand.
-/
namespace CrashDump

structure Segment where
  range : Interval
  bytes : Buffer
  deriving DecidableEq

def Segment.byteAt? (s : Segment) (a : Address) : Option UInt8 :=
  if s.range.contains a then s.bytes.bytes[a.toNat - s.range.start.toNat]? else none

/-- An interval of captured memory and where its bytes start among all that were captured. -/
structure CapturedRange where
  range : Interval
  offset : Nat
  deriving DecidableEq, Repr

structure Captured where
  table : Array CapturedRange
  data : Buffer
  deriving DecidableEq

namespace Captured

def empty : Captured := ⟨#[], ByteArray.empty⟩

def ranges (memory : Captured) : List Interval := memory.table.toList.map CapturedRange.range

/-- An entry of the table with its bytes. -/
def segment (memory : Captured) (entry : CapturedRange) : Segment :=
  ⟨entry.range, memory.data.extract entry.offset (entry.offset + entry.range.length)⟩

/-- What is held, in ascending order. -/
def segments (memory : Captured) : List Segment := memory.table.toList.map memory.segment

def byteAt? (memory : Captured) (a : Address) : Option UInt8 :=
  memory.segments.findSome? fun s => s.byteAt? a

/-- The table is in order, and each of its intervals has all its bytes. -/
structure WellFormed (memory : Captured) : Prop where
  separated : Interval.Separated memory.ranges
  filled : ∀ entry ∈ memory.table, entry.offset + entry.range.length ≤ memory.data.size

def find? (memory : Captured) (a : Address) : Option CapturedRange :=
  let index := Search.boundary (fun entry => entry.range.stop ≤ a) memory.table
  memory.table[index]?.filter fun entry => entry.range.contains a

/-- Whether one entry holds all addresses of an interval. -/
def covers (memory : Captured) (range : Interval) : Bool :=
  (memory.find? range.start).any fun entry => range.stop ≤ entry.range.stop

/-- Memory with one segment more; an empty one adds nothing, one that overlaps is refused. -/
def insert? (memory : Captured) (new : Segment) : Option Captured :=
  if new.range.isEmpty then some memory
  else
    let test := fun entry : CapturedRange => decide (entry.range.stop ≤ new.range.start)
    let index := Search.boundary test memory.table
    if memory.table[index]?.any fun next => next.range.overlaps new.range then none
    else
      some ⟨memory.table.insertIdx index ⟨new.range, memory.data.size⟩ (Search.boundary_le ..),
        memory.data ++ new.bytes⟩

/-- Memory after an attempt to add a segment. -/
def add (memory : Captured) (new : Segment) : Captured := (memory.insert? new).getD memory

def push (memory : Captured) (new : Segment) : Captured :=
  ⟨memory.table.push ⟨new.range, memory.data.size⟩, memory.data ++ new.bytes⟩

/-- The segment of a record, with its bytes taken from the dump. -/
def segmentOf (dump : Buffer) (record : MemoryRecord) : Except SnapshotFault Segment :=
  match dump.slice? record.dataOffset record.range.length with
  | some bytes => .ok ⟨record.range, bytes⟩
  | none => .error (.malformed (.dataOutside record.range))

/-- Memory with the segments of sorted records. A record that repeats the one before it, range and
bytes, is left out with a diagnostic; one that overlaps it otherwise is an error. -/
def assemble (dump : Buffer) (memory : Captured) :
    Option Segment → List MemoryRecord → Except SnapshotFault (Captured × List Diagnostic)
  | _, [] => .ok (memory, [])
  | previous, record :: rest => do
    let segment ← segmentOf dump record
    match previous.filter fun s => s.range.overlaps segment.range with
    | some other =>
      if other = segment then
        let (all, found) ← assemble dump memory previous rest
        .ok (all, .duplicateMemory record.range :: found)
      else .error (.corruptMemoryMap other.range segment.range)
    | none => assemble dump (memory.push segment) (some segment) rest

/-- Records by the start and then by the end of their intervals, without empty ones. -/
def sorted (records : List MemoryRecord) : List MemoryRecord :=
  (records.filter fun record => !record.range.isEmpty).mergeSort
    fun r s => r.range.precedes s.range

/-- The memory described by the records of a dump, in whatever order they come. -/
def build (records : List MemoryRecord) (dump : Buffer) :
    Except SnapshotFault (Captured × List Diagnostic) :=
  assemble dump empty none (sorted records)

theorem contains_of_find? {memory : Captured} {a : Address} {entry : CapturedRange}
    (h : memory.find? a = some entry) : entry.range.contains a = true :=
  (Option.filter_eq_some_iff.1 h).2

/-- Up to `length` saved bytes from an address on, and the address where they end. Reading goes on
from entry to entry for as long as the next address is held. -/
def read (memory : Captured) (a : Address) (length : Nat) : Buffer × Address :=
  if length = 0 then (ByteArray.empty, a)
  else
    match _h : memory.find? a with
    | none => (ByteArray.empty, a)
    | some entry =>
      let start := entry.offset + (a.toNat - entry.range.start.toNat)
      let count := min (entry.range.stop.toNat - a.toNat) length
      let bytes := memory.data.extract start (start + count)
      match a.add? count with
      | none => (bytes, a)
      | some next =>
        let (more, stop) := memory.read next (length - count)
        (bytes ++ more, stop)
termination_by length
decreasing_by
  have := Interval.contains_iff.1 (contains_of_find? _h)
  omega

/-- The little-endian number in `width` bytes at an address, if all of them were saved. -/
def word (memory : Captured) (width : Nat) (a : Address) : Except SnapshotFault Nat :=
  let bytes := (memory.read a width).1
  if bytes.size = width then .ok (LittleEndian.value bytes.bytes)
  else .error (.memoryUnavailable a width)

end Captured
end CrashDump

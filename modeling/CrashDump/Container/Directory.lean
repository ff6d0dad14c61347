import CrashDump.Container.Record
import CrashDump.Bytes.Buffer
import CrashDump.Fault

/-!
# The stream directory

A dump starts with a header that says where its directory of streams is. `Container.parse` accepts
a buffer exactly when header and directory are complete and every entry lies inside it. The first
entry with a tag is the stream of that tag; later entries with it are duplicates. Both are found
while the directory is read, in an index that grows with every entry.
-/
namespace CrashDump

namespace DirectoryEntry

def kind (entry : DirectoryEntry) : Option StreamKind := StreamKind.ofTag? entry.tag

/-- Whether the stream lies inside a buffer of the given size. -/
def within (size : Nat) (entry : DirectoryEntry) : Bool :=
  entry.location.offset.toNat + entry.location.size.toNat ≤ size

end DirectoryEntry

/-- What a directory has shown so far: its entries, the number of the first entry with each tag, and
the entries whose tag an earlier one has. -/
structure DirectoryIndex where
  entries : Array DirectoryEntry
  first : List (UInt32 × Nat)
  repeated : Array DirectoryEntry
  deriving DecidableEq

namespace DirectoryIndex

def empty : DirectoryIndex := ⟨#[], [], #[]⟩

/-- The index after one more entry. -/
def add (index : DirectoryIndex) (entry : DirectoryEntry) : DirectoryIndex :=
  if (index.first.lookup entry.tag).isSome then
    ⟨index.entries.push entry, index.first, index.repeated.push entry⟩
  else
    ⟨index.entries.push entry, (entry.tag, index.entries.size) :: index.first, index.repeated⟩

/-- The first entry with a tag. -/
def find? (index : DirectoryIndex) (tag : UInt32) : Option DirectoryEntry :=
  (index.first.lookup tag).bind fun number => index.entries[number]?

end DirectoryIndex

/-- A dump whose directory has been checked. -/
structure Container where
  data : Buffer
  header : Header
  index : DirectoryIndex
  deriving DecidableEq

namespace Container

/-- `MDMP` as a little-endian number. -/
def signature : UInt32 := 0x504d444d

/-- A number as an offset; offsets have 64 bits. -/
def offset (n : Nat) : Except Malformed Nat :=
  if n < UInt64.size then .ok n else .error .offsetOverflow

def recordAt {α : Type} [Record α] (data : Buffer) (offset : Nat) : Except Malformed α :=
  (data.readAt offset).mapError .unreadable

def records {α : Type} [Record α] (data : Buffer) (count : Nat) : Except Malformed (List α) :=
  (List.range count).mapM fun index => recordAt data (index * Record.size α)

/-- The index after the entry of the given number in the directory, which must lie in the dump. -/
def indexEntry (data directory : Buffer) (index : DirectoryIndex) (number : Nat) :
    Except Malformed DirectoryIndex := do
  let entry : DirectoryEntry ← recordAt directory (number * Record.size DirectoryEntry)
  if entry.within data.size then .ok (index.add entry)
  else
    .error (.streamOutside entry.tag entry.location.offset entry.location.size data.size)

/-- Checks the header, the directory and every entry of it. -/
def parse (data : Buffer) : Except Malformed Container := do
  let header : Header ← (data.readAt 0).mapError fun _ => .headerTooShort data.size
  if header.signature ≠ signature then
    .error (.badSignature header.signature)
  else
    match data.slice? header.directoryOffset.toNat
        (header.streamCount.toNat * Record.size DirectoryEntry) with
    | none => .error (.directoryTruncated header.streamCount header.directoryOffset)
    | some directory => do
      let index ←
        (List.range header.streamCount.toNat).foldlM (indexEntry data directory) .empty
      .ok ⟨data, header, index⟩

/-- All entries in file order. -/
def directory (c : Container) : List DirectoryEntry := c.index.entries.toList

/-- The entries whose tag an earlier entry has, in file order. -/
def duplicates (c : Container) : List DirectoryEntry := c.index.repeated.toList

def has (c : Container) (tag : UInt32) : Bool := (c.index.first.lookup tag).isSome

/-- `length` bytes of the dump from `offset`. -/
def slice (c : Container) (offset length : Nat) : Except Malformed Buffer :=
  match c.data.slice? offset length with
  | some bytes => .ok bytes
  | none => .error (.outside offset length c.data.size)

def located (c : Container) (location : Location) : Except Malformed Buffer :=
  c.slice location.offset.toNat location.size.toNat

def stream? (c : Container) (tag : UInt32) : Option Buffer :=
  (c.index.find? tag).bind fun entry =>
    c.data.slice? entry.location.offset.toNat entry.location.size.toNat

/-- When the dump was written, in seconds since the beginning of 1970; zero is no time. -/
def writtenAt? (c : Container) : Option Nat :=
  if c.header.timeStamp = 0 then none else some c.header.timeStamp.toNat

end Container
end CrashDump

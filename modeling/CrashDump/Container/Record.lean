import CrashDump.Bytes.Reader

/-!
# Records of a dump

Each structure lists the fields of one record in file order, so reading is field after field. All
numbers are little-endian; gaps in the layout appear as fields of their own.
-/
namespace CrashDump

structure Header where
  signature : UInt32
  version : UInt32
  streamCount : UInt32
  directoryOffset : UInt32
  checksum : UInt32
  timeStamp : UInt32
  flags : UInt64
  deriving DecidableEq, Repr

structure Location where
  size : UInt32
  offset : UInt32
  deriving DecidableEq, Repr

structure DirectoryEntry where
  tag : UInt32
  location : Location
  deriving DecidableEq, Repr

structure MemoryDescriptor where
  start : UInt64
  location : Location
  deriving DecidableEq, Repr

/-- A piece of captured memory whose bytes follow those of the piece before. -/
structure LongMemoryDescriptor where
  start : UInt64
  size : UInt64
  deriving DecidableEq, Repr

structure LongMemoryHeader where
  count : UInt64
  dataOffset : UInt64
  deriving DecidableEq, Repr

structure ThreadRecord where
  id : UInt32
  suspendCount : UInt32
  priorityClass : UInt32
  priority : UInt32
  teb : UInt64
  stack : MemoryDescriptor
  context : Location
  deriving DecidableEq, Repr

structure VersionInfo where
  signature : UInt32
  structVersion : UInt32
  fileVersionHigh : UInt32
  fileVersionLow : UInt32
  productVersionHigh : UInt32
  productVersionLow : UInt32
  flagsMask : UInt32
  flags : UInt32
  system : UInt32
  type : UInt32
  subtype : UInt32
  dateHigh : UInt32
  dateLow : UInt32
  deriving DecidableEq, Repr

structure ModuleRecord where
  base : UInt64
  size : UInt32
  checksum : UInt32
  timeStamp : UInt32
  nameOffset : UInt32
  version : VersionInfo
  codeView : Location
  misc : Location
  reserved0 : UInt64
  reserved1 : UInt64
  deriving DecidableEq, Repr

structure SystemInfo where
  processor : UInt16
  processorLevel : UInt16
  processorRevision : UInt16
  processorCount : UInt8
  productType : UInt8
  majorVersion : UInt32
  minorVersion : UInt32
  build : UInt32
  platform : UInt32
  servicePackOffset : UInt32
  suiteMask : UInt16
  reserved : UInt16
  cpu : Vector UInt8 24
  deriving DecidableEq, Repr

/-- The fields that every revision of the miscellaneous information starts with. -/
structure MiscInfo where
  size : UInt32
  flags : UInt32
  processId : UInt32
  deriving DecidableEq, Repr

structure MemoryInfoHeader where
  headerSize : UInt32
  entrySize : UInt32
  count : UInt64
  deriving DecidableEq, Repr

structure MemoryInfo where
  base : UInt64
  allocationBase : UInt64
  allocationProtection : UInt32
  alignment1 : UInt32
  size : UInt64
  state : UInt32
  protection : UInt32
  type : UInt32
  alignment2 : UInt32
  deriving DecidableEq, Repr

structure ExceptionRecord where
  code : UInt32
  flags : UInt32
  record : UInt64
  address : UInt64
  parameterCount : UInt32
  alignment : UInt32
  information : Vector UInt64 15
  deriving DecidableEq, Repr

structure ExceptionStream where
  threadId : UInt32
  alignment : UInt32
  record : ExceptionRecord
  context : Location
  deriving DecidableEq, Repr

namespace Header

protected def read : Reader Header := do
  return ⟨← Record.read, ← Record.read, ← Record.read, ← Record.read, ← Record.read,
    ← Record.read, ← Record.read⟩

protected def write (r : Header) : List UInt8 :=
  Record.write r.signature ++ Record.write r.version ++ Record.write r.streamCount ++
    Record.write r.directoryOffset ++ Record.write r.checksum ++ Record.write r.timeStamp ++
    Record.write r.flags

instance : Record Header := ⟨32, Header.read, Header.write⟩

instance : LawfulRecord Header where
  length_write r := by
    show (Header.write r).length = _
    simp only [Header.write, List.length_append, LawfulRecord.length_write]
    rfl
  read_write r rest := by
    show Header.read (Header.write r ++ rest) = _
    simp only [Header.read, Header.write, List.append_assoc, Reader.read_bind]
    rfl

end Header

namespace Location

protected def read : Reader Location := do
  return ⟨← Record.read, ← Record.read⟩

protected def write (r : Location) : List UInt8 :=
  Record.write r.size ++ Record.write r.offset

instance : Record Location := ⟨8, Location.read, Location.write⟩

instance : LawfulRecord Location where
  length_write r := by
    show (Location.write r).length = _
    simp only [Location.write, List.length_append, LawfulRecord.length_write]
    rfl
  read_write r rest := by
    show Location.read (Location.write r ++ rest) = _
    simp only [Location.read, Location.write, List.append_assoc, Reader.read_bind]
    rfl

end Location

namespace DirectoryEntry

protected def read : Reader DirectoryEntry := do
  return ⟨← Record.read, ← Record.read⟩

protected def write (r : DirectoryEntry) : List UInt8 :=
  Record.write r.tag ++ Record.write r.location

instance : Record DirectoryEntry := ⟨12, DirectoryEntry.read, DirectoryEntry.write⟩

instance : LawfulRecord DirectoryEntry where
  length_write r := by
    show (DirectoryEntry.write r).length = _
    simp only [DirectoryEntry.write, List.length_append, LawfulRecord.length_write]
    rfl
  read_write r rest := by
    show DirectoryEntry.read (DirectoryEntry.write r ++ rest) = _
    simp only [DirectoryEntry.read, DirectoryEntry.write, List.append_assoc, Reader.read_bind]
    rfl

end DirectoryEntry

namespace MemoryDescriptor

protected def read : Reader MemoryDescriptor := do
  return ⟨← Record.read, ← Record.read⟩

protected def write (r : MemoryDescriptor) : List UInt8 :=
  Record.write r.start ++ Record.write r.location

instance : Record MemoryDescriptor := ⟨16, MemoryDescriptor.read, MemoryDescriptor.write⟩

instance : LawfulRecord MemoryDescriptor where
  length_write r := by
    show (MemoryDescriptor.write r).length = _
    simp only [MemoryDescriptor.write, List.length_append, LawfulRecord.length_write]
    rfl
  read_write r rest := by
    show MemoryDescriptor.read (MemoryDescriptor.write r ++ rest) = _
    simp only [MemoryDescriptor.read, MemoryDescriptor.write, List.append_assoc, Reader.read_bind]
    rfl

end MemoryDescriptor

namespace LongMemoryDescriptor

protected def read : Reader LongMemoryDescriptor := do
  return ⟨← Record.read, ← Record.read⟩

protected def write (r : LongMemoryDescriptor) : List UInt8 :=
  Record.write r.start ++ Record.write r.size

instance : Record LongMemoryDescriptor := ⟨16, LongMemoryDescriptor.read, LongMemoryDescriptor.write⟩

instance : LawfulRecord LongMemoryDescriptor where
  length_write r := by
    show (LongMemoryDescriptor.write r).length = _
    simp only [LongMemoryDescriptor.write, List.length_append, LawfulRecord.length_write]
    rfl
  read_write r rest := by
    show LongMemoryDescriptor.read (LongMemoryDescriptor.write r ++ rest) = _
    simp only [LongMemoryDescriptor.read, LongMemoryDescriptor.write, List.append_assoc, Reader.read_bind]
    rfl

end LongMemoryDescriptor

namespace LongMemoryHeader

protected def read : Reader LongMemoryHeader := do
  return ⟨← Record.read, ← Record.read⟩

protected def write (r : LongMemoryHeader) : List UInt8 :=
  Record.write r.count ++ Record.write r.dataOffset

instance : Record LongMemoryHeader := ⟨16, LongMemoryHeader.read, LongMemoryHeader.write⟩

instance : LawfulRecord LongMemoryHeader where
  length_write r := by
    show (LongMemoryHeader.write r).length = _
    simp only [LongMemoryHeader.write, List.length_append, LawfulRecord.length_write]
    rfl
  read_write r rest := by
    show LongMemoryHeader.read (LongMemoryHeader.write r ++ rest) = _
    simp only [LongMemoryHeader.read, LongMemoryHeader.write, List.append_assoc, Reader.read_bind]
    rfl

end LongMemoryHeader

namespace ThreadRecord

protected def read : Reader ThreadRecord := do
  return ⟨← Record.read, ← Record.read, ← Record.read, ← Record.read, ← Record.read,
    ← Record.read, ← Record.read⟩

protected def write (r : ThreadRecord) : List UInt8 :=
  Record.write r.id ++ Record.write r.suspendCount ++ Record.write r.priorityClass ++
    Record.write r.priority ++ Record.write r.teb ++ Record.write r.stack ++
    Record.write r.context

instance : Record ThreadRecord := ⟨48, ThreadRecord.read, ThreadRecord.write⟩

instance : LawfulRecord ThreadRecord where
  length_write r := by
    show (ThreadRecord.write r).length = _
    simp only [ThreadRecord.write, List.length_append, LawfulRecord.length_write]
    rfl
  read_write r rest := by
    show ThreadRecord.read (ThreadRecord.write r ++ rest) = _
    simp only [ThreadRecord.read, ThreadRecord.write, List.append_assoc, Reader.read_bind]
    rfl

end ThreadRecord

namespace VersionInfo

protected def read : Reader VersionInfo := do
  return ⟨← Record.read, ← Record.read, ← Record.read, ← Record.read, ← Record.read,
    ← Record.read, ← Record.read, ← Record.read, ← Record.read, ← Record.read, ← Record.read,
    ← Record.read, ← Record.read⟩

protected def write (r : VersionInfo) : List UInt8 :=
  Record.write r.signature ++ Record.write r.structVersion ++ Record.write r.fileVersionHigh ++
    Record.write r.fileVersionLow ++ Record.write r.productVersionHigh ++
    Record.write r.productVersionLow ++ Record.write r.flagsMask ++ Record.write r.flags ++
    Record.write r.system ++ Record.write r.type ++ Record.write r.subtype ++
    Record.write r.dateHigh ++ Record.write r.dateLow

instance : Record VersionInfo := ⟨52, VersionInfo.read, VersionInfo.write⟩

instance : LawfulRecord VersionInfo where
  length_write r := by
    show (VersionInfo.write r).length = _
    simp only [VersionInfo.write, List.length_append, LawfulRecord.length_write]
    rfl
  read_write r rest := by
    show VersionInfo.read (VersionInfo.write r ++ rest) = _
    simp only [VersionInfo.read, VersionInfo.write, List.append_assoc, Reader.read_bind]
    rfl

end VersionInfo

namespace ModuleRecord

protected def read : Reader ModuleRecord := do
  return ⟨← Record.read, ← Record.read, ← Record.read, ← Record.read, ← Record.read,
    ← Record.read, ← Record.read, ← Record.read, ← Record.read, ← Record.read⟩

protected def write (r : ModuleRecord) : List UInt8 :=
  Record.write r.base ++ Record.write r.size ++ Record.write r.checksum ++
    Record.write r.timeStamp ++ Record.write r.nameOffset ++ Record.write r.version ++
    Record.write r.codeView ++ Record.write r.misc ++ Record.write r.reserved0 ++
    Record.write r.reserved1

instance : Record ModuleRecord := ⟨108, ModuleRecord.read, ModuleRecord.write⟩

instance : LawfulRecord ModuleRecord where
  length_write r := by
    show (ModuleRecord.write r).length = _
    simp only [ModuleRecord.write, List.length_append, LawfulRecord.length_write]
    rfl
  read_write r rest := by
    show ModuleRecord.read (ModuleRecord.write r ++ rest) = _
    simp only [ModuleRecord.read, ModuleRecord.write, List.append_assoc, Reader.read_bind]
    rfl

end ModuleRecord

namespace SystemInfo

protected def read : Reader SystemInfo := do
  return ⟨← Record.read, ← Record.read, ← Record.read, ← Record.read, ← Record.read,
    ← Record.read, ← Record.read, ← Record.read, ← Record.read, ← Record.read, ← Record.read,
    ← Record.read, ← Record.read⟩

protected def write (r : SystemInfo) : List UInt8 :=
  Record.write r.processor ++ Record.write r.processorLevel ++ Record.write r.processorRevision ++
    Record.write r.processorCount ++ Record.write r.productType ++ Record.write r.majorVersion ++
    Record.write r.minorVersion ++ Record.write r.build ++ Record.write r.platform ++
    Record.write r.servicePackOffset ++ Record.write r.suiteMask ++ Record.write r.reserved ++
    Record.write r.cpu

instance : Record SystemInfo := ⟨56, SystemInfo.read, SystemInfo.write⟩

instance : LawfulRecord SystemInfo where
  length_write r := by
    show (SystemInfo.write r).length = _
    simp only [SystemInfo.write, List.length_append, LawfulRecord.length_write]
    rfl
  read_write r rest := by
    show SystemInfo.read (SystemInfo.write r ++ rest) = _
    simp only [SystemInfo.read, SystemInfo.write, List.append_assoc, Reader.read_bind]
    rfl

end SystemInfo

namespace MiscInfo

protected def read : Reader MiscInfo := do
  return ⟨← Record.read, ← Record.read, ← Record.read⟩

protected def write (r : MiscInfo) : List UInt8 :=
  Record.write r.size ++ Record.write r.flags ++ Record.write r.processId

instance : Record MiscInfo := ⟨12, MiscInfo.read, MiscInfo.write⟩

instance : LawfulRecord MiscInfo where
  length_write r := by
    show (MiscInfo.write r).length = _
    simp only [MiscInfo.write, List.length_append, LawfulRecord.length_write]
    rfl
  read_write r rest := by
    show MiscInfo.read (MiscInfo.write r ++ rest) = _
    simp only [MiscInfo.read, MiscInfo.write, List.append_assoc, Reader.read_bind]
    rfl

end MiscInfo

namespace MemoryInfoHeader

protected def read : Reader MemoryInfoHeader := do
  return ⟨← Record.read, ← Record.read, ← Record.read⟩

protected def write (r : MemoryInfoHeader) : List UInt8 :=
  Record.write r.headerSize ++ Record.write r.entrySize ++ Record.write r.count

instance : Record MemoryInfoHeader := ⟨16, MemoryInfoHeader.read, MemoryInfoHeader.write⟩

instance : LawfulRecord MemoryInfoHeader where
  length_write r := by
    show (MemoryInfoHeader.write r).length = _
    simp only [MemoryInfoHeader.write, List.length_append, LawfulRecord.length_write]
    rfl
  read_write r rest := by
    show MemoryInfoHeader.read (MemoryInfoHeader.write r ++ rest) = _
    simp only [MemoryInfoHeader.read, MemoryInfoHeader.write, List.append_assoc, Reader.read_bind]
    rfl

end MemoryInfoHeader

namespace MemoryInfo

protected def read : Reader MemoryInfo := do
  return ⟨← Record.read, ← Record.read, ← Record.read, ← Record.read, ← Record.read,
    ← Record.read, ← Record.read, ← Record.read, ← Record.read⟩

protected def write (r : MemoryInfo) : List UInt8 :=
  Record.write r.base ++ Record.write r.allocationBase ++ Record.write r.allocationProtection ++
    Record.write r.alignment1 ++ Record.write r.size ++ Record.write r.state ++
    Record.write r.protection ++ Record.write r.type ++ Record.write r.alignment2

instance : Record MemoryInfo := ⟨48, MemoryInfo.read, MemoryInfo.write⟩

instance : LawfulRecord MemoryInfo where
  length_write r := by
    show (MemoryInfo.write r).length = _
    simp only [MemoryInfo.write, List.length_append, LawfulRecord.length_write]
    rfl
  read_write r rest := by
    show MemoryInfo.read (MemoryInfo.write r ++ rest) = _
    simp only [MemoryInfo.read, MemoryInfo.write, List.append_assoc, Reader.read_bind]
    rfl

end MemoryInfo

namespace ExceptionRecord

protected def read : Reader ExceptionRecord := do
  return ⟨← Record.read, ← Record.read, ← Record.read, ← Record.read, ← Record.read,
    ← Record.read, ← Record.read⟩

protected def write (r : ExceptionRecord) : List UInt8 :=
  Record.write r.code ++ Record.write r.flags ++ Record.write r.record ++
    Record.write r.address ++ Record.write r.parameterCount ++ Record.write r.alignment ++
    Record.write r.information

instance : Record ExceptionRecord := ⟨152, ExceptionRecord.read, ExceptionRecord.write⟩

instance : LawfulRecord ExceptionRecord where
  length_write r := by
    show (ExceptionRecord.write r).length = _
    simp only [ExceptionRecord.write, List.length_append, LawfulRecord.length_write]
    rfl
  read_write r rest := by
    show ExceptionRecord.read (ExceptionRecord.write r ++ rest) = _
    simp only [ExceptionRecord.read, ExceptionRecord.write, List.append_assoc, Reader.read_bind]
    rfl

end ExceptionRecord

namespace ExceptionStream

protected def read : Reader ExceptionStream := do
  return ⟨← Record.read, ← Record.read, ← Record.read, ← Record.read⟩

protected def write (r : ExceptionStream) : List UInt8 :=
  Record.write r.threadId ++ Record.write r.alignment ++ Record.write r.record ++
    Record.write r.context

instance : Record ExceptionStream := ⟨168, ExceptionStream.read, ExceptionStream.write⟩

instance : LawfulRecord ExceptionStream where
  length_write r := by
    show (ExceptionStream.write r).length = _
    simp only [ExceptionStream.write, List.length_append, LawfulRecord.length_write]
    rfl
  read_write r rest := by
    show ExceptionStream.read (ExceptionStream.write r ++ rest) = _
    simp only [ExceptionStream.read, ExceptionStream.write, List.append_assoc, Reader.read_bind]
    rfl

end ExceptionStream

end CrashDump

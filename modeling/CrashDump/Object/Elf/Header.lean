import CrashDump.Object.File

/-!
# ELF headers

The header of an ELF file of either width and byte order, and the two tables it points at: the
program headers and the section headers. Counts that do not fit the header are in the first section
header.
-/
namespace CrashDump.Elf

open ObjectFile

/-- Where the fields are that depend on the width of addresses. -/
structure Layout where
  headerSize : Nat
  programOffset : FieldPlace
  sectionOffset : FieldPlace
  programEntrySize : FieldPlace
  programCount : FieldPlace
  sectionEntrySize : FieldPlace
  sectionCount : FieldPlace
  sectionNames : FieldPlace
  programSize : Nat
  segmentOffset : FieldPlace
  segmentAddress : FieldPlace
  segmentFileSize : FieldPlace
  segmentAlignment : FieldPlace
  sectionSize : Nat
  flags : FieldPlace
  address : FieldPlace
  offset : FieldPlace
  size : FieldPlace
  link : FieldPlace
  info : FieldPlace
  alignment : FieldPlace
  symbolSize : Nat

def layout32 : Layout where
  headerSize := 52
  programOffset := ⟨28, 4⟩
  sectionOffset := ⟨32, 4⟩
  programEntrySize := ⟨42, 2⟩
  programCount := ⟨44, 2⟩
  sectionEntrySize := ⟨46, 2⟩
  sectionCount := ⟨48, 2⟩
  sectionNames := ⟨50, 2⟩
  programSize := 32
  segmentOffset := ⟨4, 4⟩
  segmentAddress := ⟨8, 4⟩
  segmentFileSize := ⟨16, 4⟩
  segmentAlignment := ⟨28, 4⟩
  sectionSize := 40
  flags := ⟨8, 4⟩
  address := ⟨12, 4⟩
  offset := ⟨16, 4⟩
  size := ⟨20, 4⟩
  link := ⟨24, 4⟩
  info := ⟨28, 4⟩
  alignment := ⟨32, 4⟩
  symbolSize := 16

def layout64 : Layout where
  headerSize := 64
  programOffset := ⟨32, 8⟩
  sectionOffset := ⟨40, 8⟩
  programEntrySize := ⟨54, 2⟩
  programCount := ⟨56, 2⟩
  sectionEntrySize := ⟨58, 2⟩
  sectionCount := ⟨60, 2⟩
  sectionNames := ⟨62, 2⟩
  programSize := 56
  segmentOffset := ⟨8, 8⟩
  segmentAddress := ⟨16, 8⟩
  segmentFileSize := ⟨32, 8⟩
  segmentAlignment := ⟨48, 8⟩
  sectionSize := 64
  flags := ⟨8, 8⟩
  address := ⟨16, 8⟩
  offset := ⟨24, 8⟩
  size := ⟨32, 8⟩
  link := ⟨40, 4⟩
  info := ⟨44, 4⟩
  alignment := ⟨48, 8⟩
  symbolSize := 24

structure Program where
  kind : Nat
  offset : Nat
  address : Nat
  fileSize : Nat
  alignment : Nat
  deriving DecidableEq, Repr

structure Section where
  kind : Nat
  flags : Nat
  address : Nat
  offset : Nat
  size : Nat
  /-- The number of a section that belongs to this one. -/
  link : Nat
  /-- For relocations, the number of the section they change. -/
  info : Nat
  alignment : Nat
  deriving DecidableEq, Repr

/-- A file with the way its numbers are to be read. -/
structure Image where
  data : Buffer
  order : ByteOrder
  layout : Layout

namespace Image

def header (image : Image) (place : FieldPlace) : Nat := field image.order image.data place

def programOf (image : Image) (entry : Buffer) : Program where
  kind := field image.order entry ⟨0, 4⟩
  offset := field image.order entry image.layout.segmentOffset
  address := field image.order entry image.layout.segmentAddress
  fileSize := field image.order entry image.layout.segmentFileSize
  alignment := field image.order entry image.layout.segmentAlignment

def sectionOf (image : Image) (entry : Buffer) : Section where
  kind := field image.order entry ⟨4, 4⟩
  flags := field image.order entry image.layout.flags
  address := field image.order entry image.layout.address
  offset := field image.order entry image.layout.offset
  size := field image.order entry image.layout.size
  link := field image.order entry image.layout.link
  info := field image.order entry image.layout.info
  alignment := field image.order entry image.layout.alignment

def firstSection? (image : Image) : Except ObjectFault (Option Section) :=
  let offset := image.header image.layout.sectionOffset
  if offset = 0 then .ok none
  else if image.header image.layout.sectionEntrySize ≠ image.layout.sectionSize then
    .error .elfSectionEntry
  else
    match image.data.slice? offset image.layout.sectionSize with
    | some entry => .ok (some (image.sectionOf entry))
    | none => .error .elfSectionFirst

def programCount (image : Image) : Except ObjectFault Nat := do
  let count := image.header image.layout.programCount
  if count < 0xffff then return count
  match ← image.firstSection? with
  | some first => return first.info
  | none => throw .elfProgramCount

def programs (image : Image) : Except ObjectFault (List Program) := do
  let offset := image.header image.layout.programOffset
  if offset = 0 then return []
  let count ← image.programCount
  if count = 0 then return []
  if image.header image.layout.programEntrySize ≠ image.layout.programSize then
    throw .elfProgramEntry
  match table? image.data offset count image.layout.programSize with
  | some entries => return entries.map image.programOf
  | none => throw .elfProgramTable

def sectionCount (image : Image) : Except ObjectFault Nat := do
  let count := image.header image.layout.sectionCount
  if count > 0 then return count
  match ← image.firstSection? with
  | some first => return first.size
  | none => return 0

def sections (image : Image) : Except ObjectFault (List Section) := do
  let offset := image.header image.layout.sectionOffset
  if offset = 0 then return []
  let count ← image.sectionCount
  if count = 0 then return []
  if image.header image.layout.sectionEntrySize ≠ image.layout.sectionSize then
    throw .elfSectionEntry
  match table? image.data offset count image.layout.sectionSize with
  | some entries => return entries.map image.sectionOf
  | none => throw .elfSectionTable

/-- The number of the section that holds the names of sections. -/
def namesIndex (image : Image) : Except ObjectFault Nat := do
  let index := image.header image.layout.sectionNames
  if index ≠ 0xffff then return index
  match ← image.firstSection? with
  | some first => return first.link
  | none => throw .elfNamesOverflow

end Image

namespace Section

/-- Whether the section takes up no bytes of the file, whatever its size. -/
def isVirtual (s : Section) : Bool := s.kind == 8

/-- Whether the end of the section is an offset, which has 64 bits. -/
def endsInRange (s : Section) : Bool := s.offset + s.size < UInt64.size

def bytes? (s : Section) (data : Buffer) : Option Buffer :=
  if s.isVirtual then some ByteArray.empty else part? data s.offset s.size

/-- Whether the bytes are there and are a whole number of entries. -/
def holdsEntries (s : Section) (data : Buffer) (entrySize : Nat) : Bool :=
  (s.bytes? data).any fun bytes => bytes.size % entrySize = 0

/-- Whether the section is code: a part of the program, loaded, and run. -/
def isCode (s : Section) : Bool := s.kind == 1 && s.flags.testBit 1 && s.flags.testBit 2

end Section

/-- Checks the section that holds the names of the given sections. -/
def checkNames (image : Image) (sections : List Section) : Except ObjectFault Unit :=
  if sections.isEmpty then .ok ()
  else do
    let index ← image.namesIndex
    if index = 0 then throw .elfNamesMissing
    match sections[index]? with
    | none => throw .elfNamesIndex
    | some s => if !s.isVirtual && !s.endsInRange then throw .elfNamesSize

end CrashDump.Elf

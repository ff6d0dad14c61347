import CrashDump.Object.Coff

/-!
# PE files

Reads the image base, the code sections and the debug identifier of a PE file with 32-bit or 64-bit
addresses. The identifier is the GUID in the first debug entry that names a debug file by one.
-/
namespace CrashDump.Pe

open ObjectFile
open Coff (get Section)

structure Layout where
  optionalSize : Nat
  imageBase : FieldPlace
  directoryCount : FieldPlace

def layout32 : Layout := ⟨96, ⟨28, 4⟩, ⟨92, 4⟩⟩

def layout64 : Layout := ⟨112, ⟨24, 8⟩, ⟨108, 4⟩⟩

/-- Where the PE headers are, according to the header before them. -/
def headerOffset (data : Buffer) : Nat := get data 60 4

/-- The layout that the optional header asks for, if the headers are there. -/
def layout? (data : Buffer) : Option Layout := do
  let _ ← data.slice? 0 64
  let headers ← data.slice? (headerOffset data) 120
  if get headers 0 4 ≠ 0x4550 then none
  else
    match get headers 24 2 with
    | 0x10b => some layout32
    | 0x20b => some layout64
    | _ => none

/-- Where the bytes are that a section has in the file for an address of the image. -/
def filePlace? (address : Nat) (s : Section) : Option (Nat × Nat) :=
  let size := min s.memorySize s.fileSize
  let offset := s.fileOffset + (address - s.address)
  if s.address ≤ address ∧ address - s.address < size ∧ offset < UInt32.size then
    some (offset, size - (address - s.address))
  else none

/-- The bytes of the file from an address of the image to the end of the section it is in. -/
def bytesAt? (data : Buffer) (sections : List Section) (address : Nat) : Option Buffer :=
  sections.findSome? fun s =>
    (filePlace? address s).bind fun (offset, size) => data.slice? offset size

/-- What the debug entries of a file hold. The outer answer is missing if one of them is broken
before an identifier is found. -/
def guidIn (data : Buffer) : List Buffer → Option (Option (List UInt8))
  | [] => some none
  | entry :: rest =>
    if get entry 12 4 ≠ 2 then guidIn data rest
    else do
      let info ← data.slice? (get entry 24 4) (get entry 16 4)
      if info.size < 4 then none
      else if (info.bytes.take 4) ≠ [0x52, 0x53, 0x44, 0x53] then guidIn data rest
      else if info.size < 24 ∨ !(info.bytes.drop 24).contains 0 then none
      else some (some ((info.bytes.drop 4).take 16))

/-- The debug identifier of a file with the given directories and sections. -/
def identifier? (data : Buffer) (directories : List Buffer) (sections : List Section) :
    Option (List UInt8) := do
  let directory ← directories[6]?
  let address := get directory 0 4
  let size := get directory 4 4
  if address = 0 then none
  else
    let bytes ← bytesAt? data sections address
    let debug ← bytes.slice? 0 size
    if size = 0 ∨ size % 28 ≠ 0 then none
    else
      let entries ← table? debug 0 (size / 28) 28
      (guidIn data entries).join

def parse (data : Buffer) (layout : Layout) : Except ObjectFault ObjectFile := do
  let start := headerOffset data
  let optional := start + 24
  if data.size < optional + layout.optionalSize then throw .peHeaders
  let optionalSize := get data (start + 20) 2
  if optionalSize < layout.optionalSize then throw .peOptionalSmall
  let rest ← match part? data (optional + layout.optionalSize)
      (optionalSize - layout.optionalSize) with
    | some rest => pure rest
    | none => throw .peOptionalCut
  let header := data.extract optional (optional + layout.optionalSize)
  let directories ← match table? rest 0 (field .little header layout.directoryCount) 8 with
    | some entries => pure entries
    | none => throw .peDirectoryCount
  let sections ← Coff.sections data (optional + optionalSize) (get data (start + 6) 2)
  let base := UInt64.ofNat (field .little header layout.imageBase)
  return {
    headerAddress := some base
    segments := []
    code := (sections.filter Section.isCode).map fun s =>
      ⟨base + UInt64.ofNat s.address, UInt64.ofNat s.memorySize⟩
    identifier := identifier? data directories sections }

end CrashDump.Pe

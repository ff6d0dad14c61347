import CrashDump.Object.Elf.Note
import CrashDump.Object.Elf.Symbol

/-!
# ELF files

Reads the segments that are loaded, the code sections and the build identifier of an ELF file.
-/
namespace CrashDump.Elf

open ObjectFile

/-- The byte order that the header names, in a file of the one version there is. -/
def byteOrder? (data : Buffer) : Option ByteOrder :=
  match field .little data ⟨5, 1⟩, field .little data ⟨6, 1⟩ with
  | 1, 1 => some .little
  | 2, 1 => some .big
  | _, _ => none

/-- Reads a file that starts with the magic of ELF and one of its two widths. The first section header
stands for no section. -/
def parse (data : Buffer) (layout : Layout) : Except ObjectFault ObjectFile := do
  if data.size < layout.headerSize then throw .elfHeader
  match byteOrder? data with
  | none => throw .elfVariant
  | some order =>
    let image : Image := ⟨data, order, layout⟩
    let programs ← image.programs
    let sections ← image.sections
    checkNames image sections
    checkSymbols image sections linkerSymbols
    checkSymbols image sections loaderSymbols
    checkRelocations sections
    return {
      headerAddress := none
      segments := (programs.filter fun p => p.kind == 1).map fun p =>
        ⟨UInt64.ofNat p.address, UInt64.ofNat p.fileSize⟩
      code := ((sections.drop 1).filter Section.isCode).map fun s =>
        ⟨UInt64.ofNat s.address, UInt64.ofNat s.size⟩
      identifier := buildId image programs sections }

end CrashDump.Elf

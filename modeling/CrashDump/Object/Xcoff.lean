import CrashDump.Object.File

/-!
# XCOFF files

Reads the code sections of an XCOFF file with 32-bit or 64-bit addresses. Numbers in it have their
high byte first. Such a file names no parts to be loaded and no build.
-/
namespace CrashDump.Xcoff

open ObjectFile

structure Layout where
  headerSize : Nat
  symbolOffset : FieldPlace
  symbolCount : FieldPlace
  auxiliaryFieldSize : FieldPlace
  flags : FieldPlace
  auxiliarySize : Nat
  sectionSize : Nat
  address : FieldPlace
  size : FieldPlace
  sectionFlags : FieldPlace

def layout32 : Layout where
  headerSize := 20
  symbolOffset := ⟨8, 4⟩
  symbolCount := ⟨12, 4⟩
  auxiliaryFieldSize := ⟨16, 2⟩
  flags := ⟨18, 2⟩
  auxiliarySize := 72
  sectionSize := 40
  address := ⟨8, 4⟩
  size := ⟨16, 4⟩
  sectionFlags := ⟨36, 4⟩

def layout64 : Layout where
  headerSize := 24
  symbolOffset := ⟨8, 8⟩
  symbolCount := ⟨20, 4⟩
  auxiliaryFieldSize := ⟨16, 2⟩
  flags := ⟨18, 2⟩
  auxiliarySize := 120
  sectionSize := 72
  address := ⟨8, 8⟩
  size := ⟨24, 8⟩
  sectionFlags := ⟨64, 4⟩

/-- How many bytes each symbol takes. -/
def symbolSize : Nat := 18

/-- Checks the auxiliary header: in a program that has one of the full size it must be there. -/
def checkAuxiliary (data : Buffer) (layout : Layout) : Except ObjectFault Unit :=
  let size := field .big data layout.auxiliaryFieldSize
  if (field .big data layout.flags).testBit 1 ∧ size = layout.auxiliarySize ∧
      data.size < layout.headerSize + size then .error .xcoffAuxiliary
  else .ok ()

def sections (data : Buffer) (layout : Layout) : Except ObjectFault (List Buffer) :=
  let offset := layout.headerSize + field .big data layout.auxiliaryFieldSize
  match table? data offset (field .big data ⟨2, 2⟩) layout.sectionSize with
  | some entries => .ok entries
  | none => .error .xcoffSections

/-- Checks that the symbols are there, and the length of their names after them. A table at the start
of the file stands for none. -/
def checkSymbols (data : Buffer) (layout : Layout) : Except ObjectFault Unit :=
  let offset := field .big data layout.symbolOffset
  let size := field .big data layout.symbolCount * symbolSize
  if offset = 0 then .ok ()
  else
    match part? data offset size, data.slice? (offset + size) 4 with
    | none, _ => .error .xcoffSymbols
    | some _, none => .error .xcoffStrings
    | some _, some _ => .ok ()

def parse (data : Buffer) (layout : Layout) : Except ObjectFault ObjectFile := do
  if data.size < layout.headerSize then throw .xcoffHeader
  checkAuxiliary data layout
  let sections ← sections data layout
  checkSymbols data layout
  return {
    headerAddress := none
    segments := []
    code := (sections.filter fun s => (field .big s layout.sectionFlags).testBit 5).map fun s =>
      ⟨UInt64.ofNat (field .big s layout.address), UInt64.ofNat (field .big s layout.size)⟩
    identifier := none }

end CrashDump.Xcoff

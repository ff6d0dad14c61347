import CrashDump.Object.File

/-!
# COFF files

Reads the sections of a COFF file, which is what compilers for Windows write, in its ordinary and its
large form. Each section is both a part that is loaded and, by its flags, code. The section headers
are the same as in PE files.
-/
namespace CrashDump.Coff

open ObjectFile

/-- A number in a field, low byte first. -/
def get (data : Buffer) (offset width : Nat) : Nat := field .little data ⟨offset, width⟩

structure Section where
  memorySize : Nat
  address : Nat
  fileSize : Nat
  fileOffset : Nat
  flags : Nat
  deriving DecidableEq, Repr

namespace Section

def ofEntry (entry : Buffer) : Section where
  memorySize := get entry 8 4
  address := get entry 12 4
  fileSize := get entry 16 4
  fileOffset := get entry 20 4
  flags := get entry 36 4

/-- Whether the section is code: it says so, or may be run. -/
def isCode (s : Section) : Bool := s.flags.testBit 5 || s.flags.testBit 29

def isBlank (s : Section) : Bool := s.flags.testBit 7

def segment (s : Section) : FileSegment :=
  ⟨UInt64.ofNat s.address, if s.isBlank then 0 else UInt64.ofNat s.fileSize⟩

end Section

def sections (data : Buffer) (offset count : Nat) : Except ObjectFault (List Section) :=
  match table? data offset count 40 with
  | some entries => .ok (entries.map Section.ofEntry)
  | none => .error .coffSections

/-- Checks that the symbols are there, and the length of their names after them. A table at the start
of the file stands for none. -/
def checkSymbols (data : Buffer) (offset count symbolSize : Nat) : Except ObjectFault Unit :=
  if offset = 0 then .ok ()
  else
    match part? data offset (count * symbolSize), data.slice? (offset + count * symbolSize) 4 with
    | none, _ => .error .coffSymbols
    | some _, none => .error .coffStrings
    | some _, some _ => .ok ()

def ofSections (sections : List Section) : ObjectFile where
  headerAddress := none
  segments := sections.map Section.segment
  code := (sections.filter Section.isCode).map fun s =>
    ⟨UInt64.ofNat s.address, UInt64.ofNat s.fileSize⟩
  identifier := none

/-- Reads a file in the ordinary form. Its first number says for which machine it is. -/
def parse (data : Buffer) : Except ObjectFault ObjectFile := do
  if data.size < 20 then throw .coffHeader
  let sections ← sections data (20 + get data 16 2) (get data 2 2)
  checkSymbols data (get data 8 4) (get data 12 4) 18
  return ofSections sections

/-- The identifier by which the large form is known. -/
def largeForm : List UInt8 :=
  [0xc7, 0xa1, 0xba, 0xd1, 0xee, 0xba, 0xa9, 0x4b, 0xaf, 0x20, 0xfa, 0xf6, 0x6a, 0xa4, 0xdc, 0xb8]

def isLarge (data : Buffer) : Bool :=
  (data.slice? 0 32).any fun header => (header.bytes.drop 12).take 16 == largeForm

def parseLarge (data : Buffer) : Except ObjectFault ObjectFile := do
  if data.size < 56 then throw .coffLargeHeader
  let sections ← sections data 56 (get data 44 4)
  checkSymbols data (get data 48 4) (get data 52 4) 20
  return ofSections sections

end CrashDump.Coff

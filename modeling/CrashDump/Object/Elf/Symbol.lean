import CrashDump.Object.Elf.Header

/-!
# ELF symbol tables

Nothing is taken from the symbols of a file, but a file whose symbol tables or relocations do not fit
together is refused. There may be a table for the linker and one for the loader; of each kind the
first one counts.
-/
namespace CrashDump.Elf

def linkerSymbols : Nat := 2

def loaderSymbols : Nat := 11

def tableIndex? (sections : List Section) (kind : Nat) : Option Nat :=
  sections.findIdx? fun s => s.kind == kind

/-- Checks the section with the names of symbols; section zero stands for no names. -/
def checkStrings (sections : List Section) (index : Nat) : Except ObjectFault Unit :=
  if index = 0 then .ok ()
  else
    match sections[index]? with
    | none => .error .elfStringsIndex
    | some s =>
      if s.kind ≠ 3 then .error .elfStringsKind
      else if s.endsInRange then .ok ()
      else .error .elfStringsSize

/-- Whether a section holds more section numbers for the symbols of the table with the given
number. -/
def Section.extends (s : Section) (index : Nat) : Bool := s.kind == 18 && s.link == index

/-- Checks the first symbol table of a kind, if there is one. -/
def checkSymbols (image : Image) (sections : List Section) (kind : Nat) :
    Except ObjectFault Unit := do
  match tableIndex? sections kind with
  | none => return
  | some index =>
    let table := sections.drop index
    if !table.head?.any (·.holdsEntries image.data image.layout.symbolSize) then throw .elfSymbols
    checkStrings sections ((table.head?.map Section.link).getD 0)
    if sections.any fun s => s.extends index && !s.holdsEntries image.data 4 then
      throw .elfSymbolIndices

/-- Whether the section holds relocations. -/
def Section.isRelocation (s : Section) : Bool :=
  s.kind == 4 || s.kind == 9 || s.kind == 0x40000014

/-- Checks the target of relocations that go by the symbol table with the given number. Section zero
stands for no target. -/
def checkRelocation (sections : List Section) (symbols : Nat) (s : Section) :
    Except ObjectFault Unit :=
  if s.isRelocation ∧ s.link = symbols ∧ s.info ≠ 0 then
    match sections[s.info]? with
    | none => .error .elfRelocationIndex
    | some target => if target.isRelocation then .error .elfRelocationKind else .ok ()
  else .ok ()

/-- Checks the relocations of the linker, the last section first. -/
def checkRelocations (sections : List Section) : Except ObjectFault Unit :=
  let symbols := (tableIndex? sections linkerSymbols).getD 0
  sections.reverse.forM (checkRelocation sections symbols)

end CrashDump.Elf

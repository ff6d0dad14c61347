/-!
# Faults of object files

Why a file on disk is no image of a module.
-/
namespace CrashDump

inductive ObjectFault where
  | noMagic
  | unknownMagic
  | unsupportedFormat
  | unknownDosFile
  | unknownAnonymous
  | elfHeader
  | elfVariant
  | elfProgramEntry
  | elfProgramTable
  | elfProgramCount
  | elfSectionEntry
  | elfSectionFirst
  | elfSectionTable
  | elfNamesMissing
  | elfNamesOverflow
  | elfNamesIndex
  | elfNamesSize
  | elfSymbols
  | elfSymbolIndices
  | elfStringsIndex
  | elfStringsKind
  | elfStringsSize
  | elfRelocationIndex
  | elfRelocationKind
  | peHeaders
  | peOptionalSmall
  | peOptionalCut
  | peDirectoryCount
  | coffHeader
  | coffLargeHeader
  | coffSections
  | coffSymbols
  | coffStrings
  | xcoffHeader
  | xcoffAuxiliary
  | xcoffSections
  | xcoffSymbols
  | xcoffStrings
  | machHeader
  | machCommand
  | machSectionCount
  | machSymbols
  deriving DecidableEq, Repr

def ObjectFault.message : ObjectFault → String
  | noMagic => "Could not read file magic"
  | unknownMagic => "Unknown file magic"
  | unsupportedFormat => "Unsupported file format"
  | unknownDosFile => "Unknown MS-DOS file"
  | unknownAnonymous => "Unknown anon object file"
  | elfHeader => "Invalid ELF header size or alignment"
  | elfVariant => "Unsupported ELF header"
  | elfProgramEntry => "Invalid ELF program header entry size"
  | elfProgramTable => "Invalid ELF program header size or alignment"
  | elfProgramCount => "Missing ELF section headers for e_phnum overflow"
  | elfSectionEntry => "Invalid ELF section header entry size"
  | elfSectionFirst => "Invalid ELF section header offset or size"
  | elfSectionTable => "Invalid ELF section header offset/size/alignment"
  | elfNamesMissing => "Missing ELF e_shstrndx"
  | elfNamesOverflow => "Missing ELF section headers for e_shstrndx overflow"
  | elfNamesIndex => "Invalid ELF e_shstrndx"
  | elfNamesSize => "Invalid ELF shstrtab size"
  | elfSymbols => "Invalid ELF symbol table data"
  | elfSymbolIndices => "Invalid ELF symtab_shndx data"
  | elfStringsIndex => "Invalid ELF section index"
  | elfStringsKind => "Invalid ELF string section type"
  | elfStringsSize => "Invalid str section offset or size"
  | elfRelocationIndex => "Invalid ELF sh_info for relocation section"
  | elfRelocationKind => "Unsupported ELF sh_info for relocation section"
  | peHeaders => "Invalid PE headers offset or size"
  | peOptionalSmall => "PE optional header size is too small"
  | peOptionalCut => "Invalid PE optional header size"
  | peDirectoryCount => "Invalid PE number of RVA and sizes"
  | coffHeader => "Invalid COFF file header size or alignment"
  | coffLargeHeader => "Invalid COFF bigobj file header size or alignment"
  | coffSections => "Invalid COFF/PE section headers"
  | coffSymbols => "Invalid COFF symbol table offset or size"
  | coffStrings => "Missing COFF string table"
  | xcoffHeader => "Invalid XCOFF header size or alignment"
  | xcoffAuxiliary => "Invalid XCOFF auxiliary header size"
  | xcoffSections => "Invalid XCOFF section headers"
  | xcoffSymbols => "Invalid XCOFF symbol table offset or size"
  | xcoffStrings => "Missing XCOFF string table"
  | machHeader => "Invalid Mach-O header size or alignment"
  | machCommand => "Invalid Mach-O command size"
  | machSectionCount => "Invalid Mach-O number of sections"
  | machSymbols => "Invalid Mach-O symbol table offset or size"

end CrashDump

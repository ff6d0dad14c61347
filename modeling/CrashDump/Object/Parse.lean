import CrashDump.Object.Elf
import CrashDump.Object.MachO
import CrashDump.Object.Pe
import CrashDump.Object.Xcoff

/-!
# Recognising object files

The first bytes of a file say which format it has. Archives, import stubs and files for several
architectures are recognised and refused.
-/
namespace CrashDump.ObjectFile

/-- The beginnings of files that only hold or name other files. -/
def wrappers : List (List UInt8) :=
  ["!<arch>\n".toUTF8.data.toList, "!<thin>\n".toUTF8.data.toList,
    "dyld_v1 ".toUTF8.data.toList, [0xca, 0xfe, 0xba, 0xbe], [0xca, 0xfe, 0xba, 0xbf],
    [0, 0, 0xff, 0xff, 0, 0]]

/-- The numbers of machines with which COFF files start: ARM, the two kinds of 64-bit ARM, x86 and its
64-bit kind. -/
def coffMachines : List (List UInt8) :=
  [[0xc4, 0x01], [0x64, 0xaa], [0x41, 0xa6], [0x4c, 0x01], [0x64, 0x86]]

def parseByStart (data : Buffer) (magic : List UInt8) : Except ObjectFault ObjectFile :=
  if wrappers.any fun start => start.isPrefixOf magic then .error .unsupportedFormat
  else if coffMachines.any fun start => start.isPrefixOf magic then Coff.parse data
  else .error .unknownMagic

def parse (data : Buffer) : Except ObjectFault ObjectFile :=
  if data.size < 16 then .error .noMagic
  else
    let magic := Buffer.bytes (data.extract 0 16)
    match magic with
    | 0x7f :: 0x45 :: 0x4c :: 0x46 :: 1 :: _ => Elf.parse data Elf.layout32
    | 0x7f :: 0x45 :: 0x4c :: 0x46 :: 2 :: _ => Elf.parse data Elf.layout64
    | 0xfe :: 0xed :: 0xfa :: 0xce :: _ => MachO.parse data MachO.layout32 .big
    | 0xce :: 0xfa :: 0xed :: 0xfe :: _ => MachO.parse data MachO.layout32 .little
    | 0xfe :: 0xed :: 0xfa :: 0xcf :: _ => MachO.parse data MachO.layout64 .big
    | 0xcf :: 0xfa :: 0xed :: 0xfe :: _ => MachO.parse data MachO.layout64 .little
    | 0x4d :: 0x5a :: _ =>
      match Pe.layout? data with
      | some layout => Pe.parse data layout
      | none => .error .unknownDosFile
    | 0 :: 0 :: 0xff :: 0xff :: 2 :: 0 :: _ =>
      if Coff.isLarge data then Coff.parseLarge data else .error .unknownAnonymous
    | 0x01 :: 0xdf :: _ => Xcoff.parse data Xcoff.layout32
    | 0x01 :: 0xf7 :: _ => Xcoff.parse data Xcoff.layout64
    | _ => parseByStart data magic

end CrashDump.ObjectFile

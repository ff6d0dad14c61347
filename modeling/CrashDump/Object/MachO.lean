import CrashDump.Object.File

/-!
# Mach-O files

Reads the segments, the code section and the identifier out of the load commands of a Mach-O file
of either width and byte order. A file that is cut off in its commands has those that can be read,
but each of these must be sound.
-/
namespace CrashDump.MachO

open ObjectFile

/-- Where the fields are that depend on the width of addresses. -/
structure Layout where
  headerSize : Nat
  segmentCommand : Nat
  segmentSize : Nat
  address : FieldPlace
  fileSize : FieldPlace
  sectionCount : FieldPlace
  sectionSize : Nat
  codeAddress : FieldPlace
  codeSize : FieldPlace
  symbolSize : Nat

def layout32 : Layout where
  headerSize := 28
  segmentCommand := 1
  segmentSize := 56
  address := ⟨24, 4⟩
  fileSize := ⟨36, 4⟩
  sectionCount := ⟨48, 4⟩
  sectionSize := 68
  codeAddress := ⟨32, 4⟩
  codeSize := ⟨36, 4⟩
  symbolSize := 12

def layout64 : Layout where
  headerSize := 32
  segmentCommand := 0x19
  segmentSize := 72
  address := ⟨24, 8⟩
  fileSize := ⟨48, 8⟩
  sectionCount := ⟨64, 4⟩
  sectionSize := 80
  codeAddress := ⟨32, 8⟩
  codeSize := ⟨40, 8⟩
  symbolSize := 16

structure Command where
  kind : Nat
  bytes : Buffer

/-- Up to `count` load commands from the start of some bytes, as far as they can be read. The size of a
command counts its kind and its size too. -/
def commandsIn (order : ByteOrder) : Nat → Buffer → List Command
  | 0, _ => []
  | count + 1, bytes =>
    let size := field order bytes ⟨4, 4⟩
    if size < 8 then []
    else
      match bytes.slice? 0 size with
      | none => []
      | some command =>
        ⟨field order bytes ⟨0, 4⟩, command⟩ ::
          commandsIn order count (bytes.extract size bytes.size)

def commands (data : Buffer) (layout : Layout) (order : ByteOrder) : List Command :=
  match data.slice? layout.headerSize (field order data ⟨20, 4⟩) with
  | none => []
  | some bytes => commandsIn order (min (field order data ⟨16, 4⟩) bytes.size) bytes

def sectionsOf (layout : Layout) (order : ByteOrder) (command : Buffer) :
    Except ObjectFault (List Buffer) :=
  if command.size < layout.segmentSize then .error .machCommand
  else
    match table? command layout.segmentSize (field order command layout.sectionCount)
        layout.sectionSize with
    | some sections => .ok sections
    | none => .error .machSectionCount

/-- Checks that the symbols are there that a symbol command speaks of. -/
def checkSymbols (data : Buffer) (layout : Layout) (order : ByteOrder) (command : Buffer) :
    Except ObjectFault Unit :=
  if command.size < 24 then .error .machCommand
  else
    let offset := field order command ⟨8, 4⟩
    let size := field order command ⟨12, 4⟩ * layout.symbolSize
    if (part? data offset size).isSome then .ok () else .error .machSymbols

/-- The section headers that a command brings, if it is sound. -/
def sectionsIn (data : Buffer) (layout : Layout) (order : ByteOrder) (command : Command) :
    Except ObjectFault (List Buffer) :=
  if command.kind = layout.segmentCommand then sectionsOf layout order command.bytes
  else if command.kind = 2 then
    (checkSymbols data layout order command.bytes).map fun _ => []
  else .ok []

def isCode (header : Buffer) : Bool :=
  name (Buffer.bytes (header.extract 0 16)) == "__text".toUTF8.data.toList &&
    name (Buffer.bytes (header.extract 16 32)) == "__TEXT".toUTF8.data.toList

def parse (data : Buffer) (layout : Layout) (order : ByteOrder) :
    Except ObjectFault ObjectFile := do
  if data.size < layout.headerSize then throw .machHeader
  let commands := commands data layout order
  let get := field order
  let segments := (commands.filter fun c => c.kind == layout.segmentCommand).map Command.bytes
  let sections ← commands.mapM (sectionsIn data layout order)
  return {
    headerAddress := none
    segments := segments.map fun c =>
      ⟨UInt64.ofNat (get c layout.address), UInt64.ofNat (get c layout.fileSize)⟩
    code := (sections.flatten.filter isCode).map fun s =>
      ⟨UInt64.ofNat (get s layout.codeAddress), UInt64.ofNat (get s layout.codeSize)⟩
    identifier := commands.findSome? fun c =>
      if c.kind = 0x1b then (c.bytes.slice? 8 16).map Buffer.bytes else none }

end CrashDump.MachO

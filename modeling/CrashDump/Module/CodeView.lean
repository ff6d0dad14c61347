import CrashDump.Bytes.Buffer
import CrashDump.Text.Hex
import CrashDump.Text.Unicode

/-!
# Identities of modules

The debug record of a module tells one build of it from another. Identity bytes are printed in
groups, the first sixteen as in a GUID and four to a group after that:

```text
E35C283B-C327-C287-62DB-788BF5A4078B-E2351448
```
-/
namespace CrashDump

inductive CodeView where
  /-- A debug file named by a GUID and an age. -/
  | pdb70 (guid : Vector UInt8 16) (age : UInt32) (name : String)
  /-- A debug file named by a time stamp and an age. -/
  | pdb20 (signature age : UInt32) (name : String)
  /-- The build identifier of an ELF file. -/
  | elf (buildId : List UInt8)
  deriving DecidableEq, Repr

namespace CodeView

/-- `RSDS` as a little-endian number. -/
def pdb70Signature : UInt32 := 0x53445352

/-- `NB10` as a little-endian number. -/
def pdb20Signature : UInt32 := 0x3031424e

/-- `LEpB` as a little-endian number. -/
def elfSignature : UInt32 := 0x4270454c

def nameOf (bytes : List UInt8) : String := Utf8.decode (bytes.takeWhile fun b => b != 0)

/-- Reads a debug record by the signature it starts with. The older debug files have an offset after
their signature that is not used. -/
def reader : Reader (Option CodeView) := do
  let signature : UInt32 ← Record.read
  if signature = pdb70Signature then
    return some (pdb70 (← Record.read) (← Record.read) (nameOf (← Reader.rest)))
  else if signature = pdb20Signature then
    let _offset : UInt32 ← Record.read
    return some (pdb20 (← Record.read) (← Record.read) (nameOf (← Reader.rest)))
  else if signature = elfSignature then
    return some (elf (← Reader.rest))
  else
    return none

def parse? (record : List UInt8) : Option CodeView := (reader.run' record).toOption.join

def signatureBytes : CodeView → List UInt8
  | pdb70 guid _ _ => guid.toList
  | pdb20 signature _ _ => LittleEndian.bytes 4 signature.toNat
  | elf buildId => buildId

/-- The bytes that name the build. An age of zero is not part of a GUID's name. -/
def identityBytes : CodeView → List UInt8
  | pdb70 guid age _ => if age = 0 then guid.toList else guid.toList ++ LittleEndian.bytes 4 age.toNat
  | pdb20 signature age _ =>
    LittleEndian.bytes 4 signature.toNat ++ LittleEndian.bytes 4 age.toNat
  | elf buildId => buildId

def debugFile? : CodeView → Option String
  | pdb70 _ _ name | pdb20 _ _ name => some name
  | elf _ => none

end CodeView

namespace Identity

def digits (bytes : List UInt8) : List Char := (Hex.byteDigits bytes).map Char.toUpper

/-- Cuts bytes into groups of the given sizes and then of four, as long as there are any. The first
argument bounds how many groups there can be. -/
def groupsUpTo : Nat → List Nat → List UInt8 → List (List UInt8)
  | 0, _, _ => []
  | _ + 1, _, [] => []
  | bound + 1, sizes, bytes =>
    let size := sizes.headD 4
    bytes.take size :: groupsUpTo bound sizes.tail (bytes.drop size)

def groups (bytes : List UInt8) : List (List UInt8) :=
  groupsUpTo bytes.length [4, 2, 2, 2, 6] bytes

def text (bytes : List UInt8) : String :=
  String.ofList (['-'].intercalate ((groups bytes).map digits))

/-- The name of a build: its debug record, or else its time stamp and size. -/
def ofModule (record : Option CodeView) (timeStamp size : UInt32) : String :=
  match record with
  | some record => text record.identityBytes
  | none =>
    text (LittleEndian.bytes 4 timeStamp.toNat ++ LittleEndian.bytes 4 size.toNat)

/-- The time stamp in eight digits, then the size in as few as will do. -/
def code (timeStamp size : UInt32) : String :=
  String.ofList ((Hex.digits 8 timeStamp.toNat ++ Nat.toDigits 16 size.toNat).map Char.toUpper)

/-- Whether two identifiers name the same build. Some writers keep only sixteen bytes, so two
identifiers of different length need only agree on those. -/
def agree (expected found : List UInt8) : Bool :=
  if expected.length = found.length then expected == found
  else 16 ≤ expected.length && 16 ≤ found.length && expected.take 16 == found.take 16

end Identity
end CrashDump

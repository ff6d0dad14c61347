import CrashDump.Fault
import CrashDump.Register.Amd64
import CrashDump.Register.Arm
import CrashDump.Register.Arm64
import CrashDump.Register.Value

/-!
# Register banks

A bank is the context of a thread with the layout that names its slices. The processor tag, the
system and, for 64-bit ARM, the context itself choose the layout.
-/
namespace CrashDump

def RegisterLayout.select (tag : UInt16) (platform : Platform) (context : Buffer) :
    Except SnapshotFault RegisterLayout :=
  if tag = 9 then .ok (if platform = .windows then Amd64.windows else Amd64.systemV)
  else if tag = 5 then .ok (if platform.isApple then Arm.apple else Arm.standard)
  else if tag = 0x8003 then .ok Arm64.packed
  else if tag = 12 then .ok (Arm64.layoutOf context)
  else .error (.unsupportedArchitecture tag)

structure RegisterBank where
  layout : RegisterLayout
  context : Buffer
  deriving DecidableEq

namespace RegisterBank

/-- The bank of a context, which must be as long as its layout asks for. -/
def ofContext (tag : UInt16) (platform : Platform) (context : Buffer) :
    Except SnapshotFault RegisterBank := do
  let layout ← RegisterLayout.select tag platform context
  if context.size < layout.contextSize then
    .error (.malformed (.contextTooShort layout.kind context.size layout.contextSize))
  else .ok ⟨layout, context⟩

def architecture (bank : RegisterBank) : Architecture := bank.layout.kind.architecture

def value? (bank : RegisterBank) (entry : RegisterEntry) : Option RegisterValue :=
  (bank.context.slice? entry.offset entry.width).map fun bytes => ⟨bytes.bytes⟩

def read (bank : RegisterBank) (name : String) : Except SnapshotFault RegisterValue :=
  match bank.layout.lookup? name with
  | none => .error (.unknownRegister name)
  | some entry =>
    match bank.value? entry with
    | none => .error (.unknownRegister entry.name)
    | some value => .ok value

/-- The register with a name as an address, zero if there is none. -/
def address (bank : RegisterBank) (name : String) : Address :=
  match bank.read name with
  | .ok value => value.address
  | .error _ => Address.zero

def pc (bank : RegisterBank) : Address := bank.address "pc"

def sp (bank : RegisterBank) : Address := bank.address "sp"

def fp (bank : RegisterBank) : Address := bank.address "fp"

/-- The link register, on processors that have one. -/
def lr? (bank : RegisterBank) : Option Address :=
  (bank.read "lr").toOption.map RegisterValue.address

/-- The registers under their own names, in order. -/
def primary (bank : RegisterBank) : List (RegisterEntry × RegisterValue) :=
  (bank.layout.entries.filter RegisterEntry.primary).filterMap fun entry =>
    (bank.value? entry).map fun value => (entry, value)

end RegisterBank
end CrashDump

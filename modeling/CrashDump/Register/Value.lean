import CrashDump.Bytes.LittleEndian
import CrashDump.Memory.Address

/-!
# Register values

The bytes of a register as the context stores them, lowest first.
-/
namespace CrashDump

structure RegisterValue where
  bytes : List UInt8
  deriving DecidableEq, Repr

namespace RegisterValue

/-- The value of a 64-bit register. -/
def ofWord (word : UInt64) : RegisterValue := ⟨LittleEndian.bytes 8 word.toNat⟩

def width (value : RegisterValue) : Nat := value.bytes.length

/-- The number in the lowest `count` bytes, or in all if there are fewer. -/
def low (value : RegisterValue) (count : Nat) : Nat := LittleEndian.value (value.bytes.take count)

/-- The lowest 64 bits as an address. -/
def address (value : RegisterValue) : Address := Address.ofNat (value.low 8)

/-- Two digits a byte, highest byte first. -/
def text (value : RegisterValue) : String := "0x" ++ Hex.ofBytes value.bytes.reverse

end RegisterValue
end CrashDump

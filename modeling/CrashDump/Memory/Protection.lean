import CrashDump.Container.Record
import CrashDump.Memory.Region

/-!
# Page protections

A memory information entry gives the protection of a stretch of pages as a word: the low byte
selects an access, and a bit above it marks guard pages, which may not be accessed at all.
-/
namespace CrashDump

namespace Permissions

/-- The access that the low byte of a protection selects. -/
def ofAccess (access : Nat) : Permissions :=
  if access = 0x02 then ⟨true, false, false⟩
  else if access = 0x04 ∨ access = 0x08 then ⟨true, true, false⟩
  else if access = 0x10 then ⟨false, false, true⟩
  else if access = 0x20 then ⟨true, false, true⟩
  else if access = 0x40 ∨ access = 0x80 then ⟨true, true, true⟩
  else noAccess

def ofProtection (protection : UInt32) : Permissions :=
  if protection.toNat.testBit 8 then noAccess else ofAccess (protection.toNat % 256)

end Permissions

namespace MemoryInfo

/-- The state of pages that are in use. -/
def committed : UInt32 := 0x1000

/-- The state of pages that are not even reserved. -/
def free : UInt32 := 0x10000

/-- The mapping of an entry; a free, empty or wrapping one has none, and one that is only reserved
allows nothing. -/
def mapping? (info : MemoryInfo) : Option Mapping :=
  if info.state = free ∨ info.size = 0 then none
  else
    (Interval.ofLength? ⟨info.base⟩ info.size.toNat).map fun range =>
      { range := range
        permissions :=
          if info.state = committed then Permissions.ofProtection info.protection
          else Permissions.noAccess
        name := none }

end MemoryInfo
end CrashDump

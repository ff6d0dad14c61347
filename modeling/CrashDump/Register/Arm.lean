import CrashDump.Register.Layout

/-!
# Registers of 32-bit ARM

| Offset | Field |
|--------|-------|
| 4 | `r0` to `r15` |
| 68 | `cpsr` |
| 72 | `fpscr` |
| 80 | `d0` to `d31` |

The single and the quad registers are views of the double ones. Apple's systems keep the frame
pointer in `r7`, all others in `r11`.
-/
namespace CrashDump.Arm

open RegisterEntry

/-- Every slice that has a name whatever the system. -/
def slices : List RegisterEntry :=
  numbered "r" 16 4 4 4 .general true ++
    [⟨"cpsr", 68, 4, .status, true⟩, ⟨"fpscr", 72, 8, .status, true⟩] ++
    numbered "d" 32 80 8 8 .floatingPoint true ++ numbered "s" 32 80 4 4 .floatingPoint false ++
    numbered "q" 16 80 16 16 .vector false

/-- The layout with the given frame pointer. -/
def layoutWith (framePointer : String) : RegisterLayout where
  kind := .arm
  contextSize := 368
  entries := withNames slices
    ([("sp", "r13"), ("lr", "r14"), ("pc", "r15"), ("fp", framePointer), ("flags", "cpsr")] ++
      arguments ["r0", "r1", "r2", "r3"])

def apple : RegisterLayout := layoutWith "r7"

def standard : RegisterLayout := layoutWith "r11"

end CrashDump.Arm

import CrashDump.Register.Layout

/-!
# Registers of x86-64

| Offset | Field |
|--------|-------|
| 52 | `mxcsr` |
| 56 | segment registers, two bytes each |
| 68 | flags |
| 72 | debug registers |
| 120 | general registers |
| 248 | `rip` |
| 256 | saved floating-point and vector state |

Which registers hold the arguments of a function depends on the calling convention.
-/
namespace CrashDump.Amd64

open RegisterEntry

def generalOffsets : List (String × Nat) :=
  [("rax", 120), ("rbx", 144), ("rcx", 128), ("rdx", 136), ("rdi", 176), ("rsi", 168),
    ("rbp", 160), ("rsp", 152), ("r8", 184), ("r9", 192), ("r10", 200), ("r11", 208),
    ("r12", 216), ("r13", 224), ("r14", 232), ("r15", 240), ("rip", 248)]

def segmentOffsets : List (String × Nat) :=
  [("cs", 56), ("ds", 58), ("es", 60), ("fs", 62), ("gs", 64), ("ss", 66)]

def debugOffsets : List (String × Nat) :=
  [("dr0", 72), ("dr1", 80), ("dr2", 88), ("dr3", 96), ("dr6", 104), ("dr7", 112)]

/-- Registers of one width at the given offsets. -/
def registers (width : Nat) (group : RegisterClass) (offsets : List (String × Nat)) :
    List RegisterEntry :=
  offsets.map fun (name, offset) => ⟨name, offset, width, group, true⟩

/-- Control and status of floating point, and the flags of vector arithmetic. -/
def floatControl : List RegisterEntry :=
  [⟨"fctrl", 256, 2, .floatingPoint, true⟩, ⟨"fstat", 258, 2, .floatingPoint, true⟩,
    ⟨"ftag", 260, 1, .floatingPoint, true⟩, ⟨"fop", 262, 2, .floatingPoint, true⟩,
    ⟨"fioff", 264, 4, .floatingPoint, true⟩, ⟨"fiseg", 268, 2, .floatingPoint, true⟩,
    ⟨"fooff", 272, 4, .floatingPoint, true⟩, ⟨"foseg", 276, 2, .floatingPoint, true⟩,
    ⟨"mxcsr", 52, 4, .status, true⟩, ⟨"mxcsrmask", 284, 4, .status, true⟩]

def part (name : String) (offset width : Nat) : RegisterEntry :=
  ⟨name, offset, width, .general, false⟩

/-- The parts of the older general registers. The sixteen low bits of the stack pointer have no name
of their own. -/
def olderParts : List RegisterEntry :=
  [part "eax" 120 4, part "ax" 120 2, part "al" 120 1, part "ah" 121 1,
    part "ebx" 144 4, part "bx" 144 2, part "bl" 144 1, part "bh" 145 1,
    part "ecx" 128 4, part "cx" 128 2, part "cl" 128 1, part "ch" 129 1,
    part "edx" 136 4, part "dx" 136 2, part "dl" 136 1, part "dh" 137 1,
    part "edi" 176 4, part "di" 176 2, part "dil" 176 1,
    part "esi" 168 4, part "si" 168 2, part "sil" 168 1,
    part "ebp" 160 4, part "bp" 160 2, part "bpl" 160 1,
    part "esp" 152 4, part "spl" 152 1]

/-- The parts of the registers `r8` to `r15`. -/
def newerParts : List RegisterEntry :=
  (List.range 8).flatMap fun index =>
    let stem := "r" ++ toString (index + 8)
    let offset := 184 + 8 * index
    [part (stem ++ "d") offset 4, part (stem ++ "w") offset 2, part (stem ++ "l") offset 1]

/-- Every slice that has a name whatever the calling convention. -/
def slices : List RegisterEntry :=
  registers 8 .general generalOffsets ++ [⟨"rflags", 68, 4, .status, true⟩] ++
    registers 2 .segment segmentOffsets ++ floatControl ++
    numbered "st" 8 288 16 10 .floatingPoint true ++ numbered "xmm" 16 416 16 16 .vector true ++
    registers 8 .debug debugOffsets ++ olderParts ++ newerParts

/-- The layout with the given registers for arguments. -/
def layoutWith (registers : List String) : RegisterLayout where
  kind := .amd64
  contextSize := 1232
  entries := withNames slices
    ([("pc", "rip"), ("sp", "rsp"), ("fp", "rbp"), ("flags", "rflags"), ("eflags", "rflags")] ++
      arguments registers)

def windows : RegisterLayout := layoutWith ["rcx", "rdx", "r8", "r9"]

def systemV : RegisterLayout := layoutWith ["rdi", "rsi", "rdx", "rcx", "r8", "r9"]

end CrashDump.Amd64

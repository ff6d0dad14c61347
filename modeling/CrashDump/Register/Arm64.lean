import CrashDump.Bytes.Buffer
import CrashDump.Register.Layout

/-!
# Registers of 64-bit ARM

Two structures are in use. Both start with eight bytes and the general registers:

| Offset | Aligned structure | Offset | Packed structure |
|--------|-------------------|--------|------------------|
| 4 | `cpsr` | 272 | `cpsr` |
| 272 | `v0` to `v31` | 276 | `fpsr` |
| 784 | `fpsr` | 280 | `fpcr` |
| 788 | `fpcr` | 284 | `v0` to `v31` |
| 792 | debug registers | | |
-/
namespace CrashDump.Arm64

open RegisterEntry

/-- The general registers, and the status words at the given offsets. -/
def wordSlices (cpsr fpsr fpcr : Nat) : List RegisterEntry :=
  numbered "x" 32 8 8 8 .general true ++
    [⟨"pc", 264, 8, .general, true⟩, ⟨"cpsr", cpsr, 4, .status, true⟩,
      ⟨"fpsr", fpsr, 4, .status, true⟩, ⟨"fpcr", fpcr, 4, .status, true⟩]

/-- Control and value registers of breakpoints and watchpoints. -/
def debugSlices : List RegisterEntry :=
  ((List.range 8).flatMap fun index =>
    [⟨"bcr" ++ toString index, 792 + 4 * index, 4, .debug, true⟩,
      ⟨"bvr" ++ toString index, 824 + 8 * index, 8, .debug, true⟩]) ++
  (List.range 2).flatMap fun index =>
    [⟨"wcr" ++ toString index, 888 + 4 * index, 4, .debug, true⟩,
      ⟨"wvr" ++ toString index, 896 + 8 * index, 8, .debug, true⟩]

/-- The low parts of the vector registers, which start at the given offset. -/
def vectorParts (vector : Nat) : List RegisterEntry :=
  (List.range 32).flatMap fun index =>
    let offset := vector + 16 * index
    [⟨"q" ++ toString index, offset, 16, .vector, false⟩,
      ⟨"d" ++ toString index, offset, 8, .floatingPoint, false⟩,
      ⟨"s" ++ toString index, offset, 4, .floatingPoint, false⟩,
      ⟨"h" ++ toString index, offset, 2, .floatingPoint, false⟩,
      ⟨"b" ++ toString index, offset, 1, .floatingPoint, false⟩]

def names : List (String × String) :=
  [("fp", "x29"), ("lr", "x30"), ("sp", "x31"), ("psr", "cpsr"), ("flags", "cpsr")] ++
    arguments ["x0", "x1", "x2", "x3", "x4", "x5", "x6", "x7"]

/-- Slices in the order in which they are listed: words, vectors, debug registers, parts. -/
def slices (words : List RegisterEntry) (vector : Nat) (debug : List RegisterEntry) :
    List RegisterEntry :=
  words ++ numbered "v" 32 vector 16 16 .vector true ++ debug ++
    numbered "w" 32 8 8 4 .general false ++ vectorParts vector

def aligned : RegisterLayout where
  kind := .arm64
  contextSize := 912
  entries := withNames (slices (wordSlices 4 784 788) 272 debugSlices) names

/-- The layout of the packed structure, which has no debug registers. -/
def packed : RegisterLayout where
  kind := .arm64Packed
  contextSize := 796
  entries := withNames (slices (wordSlices 272 276 280) 284 []) names

/-- The layout of a context, told by the flags at its start or, without a flag, by its size. -/
def layoutOf (context : Buffer) : RegisterLayout :=
  let flags := (context.word? 4 0).getD 0
  if flags.testBit 22 then aligned
  else if flags.testBit 31 ∨ context.size < aligned.contextSize then packed
  else aligned

end CrashDump.Arm64

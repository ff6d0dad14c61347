import CrashDump.Memory.Captured
import CrashDump.Register.Bank

/-!
# Stack frames

The frames of a thread, innermost first. Frame 0 is the thread's context; each further frame comes
from the frame record that the frame pointer of the one before points at:

```text
upward record                     downward record
[fp]           caller's fp        [fp - word]    caller's fp
[fp + word]    caller's pc        [fp]           caller's pc
fp + 2 * word  caller's sp        fp + word      caller's sp
```

A function that calls no other need not have written a record. Then the link register, on processors
that have one, says where frame 1 is. The stack pointer has to grow from record to record, so no
chain of records is followed forever.
-/
namespace CrashDump

inductive FrameStatus where
  | context
  | framePointer
  | linkRegister
  deriving DecidableEq, Repr

def FrameStatus.name : FrameStatus → String
  | context => "Context"
  | framePointer => "FramePointer"
  | linkRegister => "LinkRegister"

structure Frame where
  index : Nat
  pc : Address
  sp : Address
  fp : Address
  status : FrameStatus
  deriving DecidableEq, Repr

/-- Which way from the frame pointer a frame record lies. -/
inductive FrameRecord where
  | upward
  | downward
  deriving DecidableEq, Repr

/-- The record in use on a processor and a system. -/
def FrameRecord.of (architecture : Architecture) (platform : Platform) : FrameRecord :=
  if architecture = .arm ∧ !platform.isApple then downward else upward

/-- What the frames of a thread are recovered with. -/
structure StackWalk where
  architecture : Architecture
  platform : Platform
  memory : Captured

namespace StackWalk

def word? (walk : StackWalk) (a : Address) : Option Address :=
  (walk.memory.word walk.architecture.pointerSize a).toOption.map Address.ofNat

/-- The caller's frame, as the record at the frame pointer gives it. -/
def recordedCaller? (walk : StackWalk) (frame : Frame) : Option Frame := do
  let size := walk.architecture.pointerSize
  if frame.fp = Address.zero then none
  else
    let (fp, pc, sp) ← match FrameRecord.of walk.architecture walk.platform with
      | .upward => do
        pure (← walk.word? frame.fp, ← walk.word? (← frame.fp.add? size),
          ← frame.fp.add? (2 * size))
      | .downward => do
        pure (← walk.word? (← frame.fp.sub? size), ← walk.word? frame.fp,
          ← frame.fp.add? size)
    if sp ≤ frame.sp then none
    else some ⟨frame.index + 1, pc, sp, fp, .framePointer⟩

/-- The caller's frame, as the link register gives it for the innermost frame. -/
def linkedCaller? (walk : StackWalk) (bank : RegisterBank) (frame : Frame) : Option Frame :=
  if frame.status ≠ .context ∨ walk.architecture = .amd64 then none
  else
    match bank.lr? with
    | none => none
    | some lr =>
      if lr = Address.zero ∨ lr = frame.pc then none
      else some ⟨frame.index + 1, lr, frame.sp, frame.fp, .linkRegister⟩

/-- The caller's frame. A program counter of zero means that there is none. -/
def caller? (walk : StackWalk) (bank : RegisterBank) (frame : Frame) : Option Frame :=
  ((walk.recordedCaller? frame).or (walk.linkedCaller? bank frame)).filter fun caller =>
    caller.pc ≠ Address.zero

/-- A frame and those that called it, up to `limit` of them. -/
def framesFrom (walk : StackWalk) (bank : RegisterBank) : Nat → Frame → List Frame
  | 0, _ => []
  | limit + 1, frame =>
    frame :: match walk.caller? bank frame with
      | none => []
      | some caller => framesFrom walk bank limit caller

def innermost (bank : RegisterBank) : Frame := ⟨0, bank.pc, bank.sp, bank.fp, .context⟩

/-- The frames of a thread, up to `limit` of them. -/
def frames (walk : StackWalk) (bank : RegisterBank) (limit : Nat) : List Frame :=
  walk.framesFrom bank limit (innermost bank)

end StackWalk
end CrashDump

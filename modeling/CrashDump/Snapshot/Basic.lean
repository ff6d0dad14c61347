import CrashDump.Memory.RegionMap
import CrashDump.Thread.Frame
import CrashDump.Thread.Stop

/-!
# Snapshots

A process as a dump shows it: its threads, its modules, its memory, and what was found odd while it
was read. A snapshot answers questions and never changes.
-/
namespace CrashDump

structure Thread where
  id : UInt32
  /-- The registers of frame 0, if the dump has a context that can be read. -/
  registers : Option RegisterBank
  stop : ThreadStop
  stack : Option Interval
  suspendCount : UInt32
  teb : UInt64
  frames : List Frame
  deriving DecidableEq

/-- The registers of frame 0, which the register asked for is one of. -/
def Thread.bank (thread : Thread) (register : String) : Except SnapshotFault RegisterBank :=
  match thread.registers with
  | some bank => .ok bank
  | none => .error (.registerUnavailable register 0)

structure Snapshot where
  processId : Option UInt32
  architecture : Architecture
  platform : Platform
  /-- When the dump was written, in seconds since the beginning of 1970. -/
  writtenAt : Option Nat
  threads : List Thread
  modules : ModuleList
  regions : RegionMap
  memory : Captured
  diagnostics : List Diagnostic
  deriving DecidableEq

inductive ReadStop where
  | unmapped
  | notCaptured
  deriving DecidableEq, Repr

def ReadStop.name : ReadStop → String
  | unmapped => "Unmapped"
  | notCaptured => "NotCaptured"

inductive MemoryRead where
  | full (bytes : Buffer)
  | broken (bytes : Buffer) (stop : ReadStop)
  | notCaptured
  | unmapped
  deriving DecidableEq

namespace MemoryRead

def bytes : MemoryRead → Buffer
  | full bytes | broken bytes _ => bytes
  | notCaptured | unmapped => ByteArray.empty

def isFull : MemoryRead → Bool
  | full _ => true
  | _ => false

end MemoryRead

namespace Snapshot

def thread (s : Snapshot) (index : Nat) : Except SnapshotFault Thread :=
  match s.threads[index]? with
  | some thread => .ok thread
  | none => .error (.threadNotFound index)

/-- The first thread that an exception belongs to. -/
def crashedThread? (s : Snapshot) : Option Nat := s.threads.findIdx? fun thread => thread.stop.isCrash

def frames (s : Snapshot) (index : Nat) : Except SnapshotFault (List Frame) :=
  (s.thread index).map Thread.frames

def stop (s : Snapshot) (index : Nat) : Except SnapshotFault ThreadStop :=
  (s.thread index).map Thread.stop

def threadId (s : Snapshot) (index : Nat) : Except SnapshotFault UInt32 :=
  (s.thread index).map Thread.id

/-- What a frame says of its registers, by the names they have on every processor. -/
def recovered (frame : Frame) : List (String × Address) :=
  [("pc", frame.pc), ("sp", frame.sp), ("fp", frame.fp)]

/-- The register of an outer frame that an entry names, if the frame knows it. -/
def recoveredValue? (layout : RegisterLayout) (frame : Frame) (entry : RegisterEntry) :
    Option RegisterValue :=
  let known := (recovered frame).find? fun (name, _) =>
    (layout.lookup? name).any fun other => other.sameSlice entry
  known.map fun (_, value) => ⟨(LittleEndian.bytes 8 value.toNat).take entry.width⟩

/-- A register of a frame. Frame 0 has all registers of the thread, the others only what was
recovered for them. -/
def register (s : Snapshot) (index frame : Nat) (name : String) :
    Except SnapshotFault RegisterValue := do
  let thread ← s.thread index
  if frame = 0 then (← thread.bank name).read name
  else
    match thread.frames[frame]? with
    | none => .error (.frameUnavailable index frame)
    | some outer => do
      let bank ← thread.bank name
      match bank.layout.lookup? name with
      | none => .error (.unknownRegister name)
      | some entry =>
        match recoveredValue? bank.layout outer entry with
        | some value => .ok value
        | none => .error (.registerUnavailable name frame)

def region (s : Snapshot) (a : Address) : Region := s.regions.regionAt a

/-- Reads memory as far as it was captured. -/
def read (s : Snapshot) (a : Address) (length : Nat) : MemoryRead :=
  let (bytes, stop) := s.memory.read a length
  if bytes.size = length then .full bytes
  else if (s.region stop).isMapped then
    if bytes.isEmpty then .notCaptured else .broken bytes .notCaptured
  else
    if bytes.isEmpty then .unmapped else .broken bytes .unmapped

/-- Refuses to run or to change what is only a picture. -/
def change (_ : Snapshot) (mutation : Mutation) : Except SnapshotFault Snapshot :=
  .error (.immutable mutation)

/-- Stops every thread, which they are already. -/
def suspend (s : Snapshot) : Snapshot := s

def isStopped (_ : Snapshot) : Bool := true

end Snapshot
end CrashDump

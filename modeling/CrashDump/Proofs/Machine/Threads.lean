import CrashDump.Proofs.FrameRegisters
import CrashDump.Proofs.Machine.Memory

/-!
# Threads on the machine

Registers are read at the offsets of their layout, and every layout in use stays far below what 64
bits can count. Frames are recovered by checked sums and by words of captured memory.
-/
namespace CrashDump

theorem LittleEndian.value_append_zeros (bytes : List UInt8) (count : Nat) :
    value (bytes ++ List.replicate count 0) = value bytes := by
  have hzeros : value (List.replicate count 0) = 0 := by
    induction count with
    | zero => rfl
    | succ count ih => simp [List.replicate_succ, ih]
  rw [value_append, hzeros, Nat.mul_zero, Nat.add_zero]

theorem RegisterLayout.contextSize_lt : ∀ layout ∈ all, layout.contextSize < UInt64.size := by
  decide

namespace Machine

section Registers

def value? (bank : RegisterBank) (entry : RegisterEntry) : Except Trap (Option RegisterValue) := do
  let stop ← add entry.offset entry.width
  return (get? bank.context entry.offset stop).map fun bytes => ⟨bytes.bytes⟩

def readRegister (bank : RegisterBank) (name : String) : Guarded SnapshotFault RegisterValue :=
  match bank.layout.lookup? name with
  | none => throw (.unknownRegister name)
  | some entry => do
    match ← value? bank entry with
    | none => throw (.unknownRegister entry.name)
    | some value => return value

/-- The lowest bytes of a register, written over as many of eight zeros. -/
def lowWord (value : RegisterValue) : Except Trap Address := do
  let count := min value.width 8
  let low ← front value.bytes count
  let zeros ← back (List.replicate 8 0) count
  return Address.ofNat (LittleEndian.value (low ++ zeros))

def registerAddress (bank : RegisterBank) (name : String) : Except Trap Address := do
  match ← (readRegister bank name).run with
  | .ok value => lowWord value
  | .error _ => return Address.zero

def lr? (bank : RegisterBank) : Except Trap (Option Address) := do
  match ← (readRegister bank "lr").run with
  | .ok value => do
    let lr ← lowWord value
    return some lr
  | .error _ => return none

theorem lowWord_eq (value : RegisterValue) : lowWord value = .ok value.address := by
  have hwidth : min value.width 8 ≤ value.bytes.length := Nat.min_le_left ..
  have height : min value.width 8 ≤ (List.replicate 8 (0 : UInt8)).length := by
    rw [List.length_replicate]
    exact Nat.min_le_right ..
  have hlow : value.bytes.take (min value.width 8) = value.bytes.take 8 := by
    rw [RegisterValue.width, Nat.min_comm, ← List.take_eq_take_min]
  rw [lowWord, front_eq hwidth, ok_bind, back_eq height, ok_bind, List.drop_replicate,
    LittleEndian.value_append_zeros, hlow]
  rfl

variable {bank : RegisterBank} (hbank : bank.layout ∈ RegisterLayout.all)

include hbank

theorem readRegister_eq (name : String) : readRegister bank name = pass (bank.read name) := by
  unfold readRegister RegisterBank.read
  cases hentry : bank.layout.lookup? name with
  | none => rfl
  | some entry =>
    have hwithin := RegisterLayout.within_contextSize _ hbank entry
      (List.mem_of_find?_eq_some hentry)
    have hfits := Nat.lt_of_le_of_lt hwithin (RegisterLayout.contextSize_lt _ hbank)
    have hvalue : value? bank entry = .ok (bank.value? entry) := by
      rw [value?, add_eq hfits, ok_bind, get?_eq]
      rfl
    simp only [hvalue, lift_bind]
    cases bank.value? entry with
    | none => rfl
    | some value => rfl

theorem registerAddress_eq (name : String) :
    registerAddress bank name = .ok (bank.address name) := by
  unfold registerAddress RegisterBank.address
  rw [readRegister_eq hbank]
  change (Except.ok (bank.read name) >>= _) = _
  rw [ok_bind]
  cases bank.read name with
  | error fault => rfl
  | ok value => exact lowWord_eq value

theorem lr?_eq : lr? bank = .ok bank.lr? := by
  unfold lr? RegisterBank.lr?
  rw [readRegister_eq hbank]
  change (Except.ok (bank.read "lr") >>= _) = _
  rw [ok_bind]
  cases bank.read "lr" with
  | error fault => rfl
  | ok value =>
    simp only [lowWord_eq]
    rfl

end Registers

section Frames

/-- A value that may be missing, found without meeting a trap. -/
def passOption {α : Type} (x : Option α) : OptionT (Except Trap) α := OptionT.mk (.ok x)

theorem passOption_bind {α β : Type} {x : Option α} {f : α → OptionT (Except Trap) β}
    {g : α → Option β} (h : ∀ a, f a = passOption (g a)) :
    (passOption x >>= f) = passOption (x >>= g) := by
  cases x with
  | none => rfl
  | some a => exact h a

def word? (walk : StackWalk) (a : Address) : OptionT (Except Trap) Address :=
  OptionT.mk do
    let found ← (word walk.memory walk.architecture.pointerSize a).run
    return found.toOption.map Address.ofNat

/-- The frame pointer, program counter and stack pointer of the caller, by the frame record. -/
def recordFields? (walk : StackWalk) (fp : Address) :
    OptionT (Except Trap) (Address × Address × Address) := do
  let size := walk.architecture.pointerSize
  match FrameRecord.of walk.architecture walk.platform with
  | .upward => do
    let callerFp ← word? walk fp
    let above ← passOption (fp.add? size)
    let callerPc ← word? walk above
    let length ← mul 2 size
    let callerSp ← passOption (fp.add? length)
    return (callerFp, callerPc, callerSp)
  | .downward => do
    let below ← passOption (fp.sub? size)
    let callerFp ← word? walk below
    let callerPc ← word? walk fp
    let callerSp ← passOption (fp.add? size)
    return (callerFp, callerPc, callerSp)

def recordedCaller? (walk : StackWalk) (frame : Frame) : OptionT (Except Trap) Frame :=
  if frame.fp = Address.zero then failure
  else do
    let (fp, pc, sp) ← recordFields? walk frame.fp
    if sp ≤ frame.sp then failure
    else return ⟨frame.index + 1, pc, sp, fp, .framePointer⟩

def linkedCaller? (walk : StackWalk) (bank : RegisterBank) (frame : Frame) :
    Except Trap (Option Frame) :=
  if frame.status ≠ .context ∨ walk.architecture = .amd64 then return none
  else do
    match ← lr? bank with
    | none => return none
    | some lr =>
      if lr = Address.zero ∨ lr = frame.pc then return none
      else return some ⟨frame.index + 1, lr, frame.sp, frame.fp, .linkRegister⟩

def caller? (walk : StackWalk) (bank : RegisterBank) (frame : Frame) :
    Except Trap (Option Frame) := do
  let caller ← match ← (recordedCaller? walk frame).run with
    | some caller => pure (some caller)
    | none => linkedCaller? walk bank frame
  return caller.filter fun caller => caller.pc ≠ Address.zero

def framesFrom (walk : StackWalk) (bank : RegisterBank) : Nat → Frame → Except Trap (List Frame)
  | 0, _ => return []
  | limit + 1, frame => do
    match ← caller? walk bank frame with
    | none => return [frame]
    | some caller => do
      let outer ← framesFrom walk bank limit caller
      return frame :: outer

def frames (walk : StackWalk) (bank : RegisterBank) (limit : Nat) : Except Trap (List Frame) := do
  let pc ← registerAddress bank "pc"
  let sp ← registerAddress bank "sp"
  let fp ← registerAddress bank "fp"
  framesFrom walk bank limit ⟨0, pc, sp, fp, .context⟩

variable {walk : StackWalk} (hmemory : walk.memory.Reachable)

include hmemory

theorem word?_eq (a : Address) : word? walk a = passOption (walk.word? a) := by
  rw [word?, word_eq hmemory]
  rfl

theorem recordedCaller?_eq (frame : Frame) :
    recordedCaller? walk frame = passOption (walk.recordedCaller? frame) := by
  have hlength : mul 2 walk.architecture.pointerSize =
      .ok (2 * walk.architecture.pointerSize) := by
    have hsize := walk.architecture.pointerSize_le
    refine mul_eq ?_
    simp only [UInt64.size]
    omega
  have hcaller : ∀ fp pc sp : Address,
      (if sp ≤ frame.sp then failure
        else pure ⟨frame.index + 1, pc, sp, fp, .framePointer⟩ : OptionT (Except Trap) Frame) =
      passOption (if sp ≤ frame.sp then none
        else some ⟨frame.index + 1, pc, sp, fp, .framePointer⟩) := by
    intro fp pc sp
    split <;> rfl
  unfold recordedCaller? StackWalk.recordedCaller? recordFields?
  simp only [word?_eq hmemory, hlength]
  split
  · rfl
  cases FrameRecord.of walk.architecture walk.platform with
  | upward =>
    simp only [bind_assoc]
    refine passOption_bind fun fp => ?_
    refine passOption_bind fun above => ?_
    refine passOption_bind fun pc => ?_
    change (passOption (frame.fp.add? (2 * walk.architecture.pointerSize)) >>= _) = _
    refine passOption_bind fun sp => ?_
    exact hcaller fp pc sp
  | downward =>
    simp only [bind_assoc]
    refine passOption_bind fun below => ?_
    refine passOption_bind fun fp => ?_
    refine passOption_bind fun pc => ?_
    refine passOption_bind fun sp => ?_
    exact hcaller fp pc sp

variable {bank : RegisterBank} (hbank : bank.layout ∈ RegisterLayout.all)

include hbank

omit hmemory in
theorem linkedCaller?_eq (frame : Frame) :
    linkedCaller? walk bank frame = .ok (walk.linkedCaller? bank frame) := by
  unfold linkedCaller? StackWalk.linkedCaller?
  split
  · rfl
  rw [lr?_eq hbank, ok_bind]
  cases bank.lr? with
  | none => rfl
  | some lr =>
    simp only
    split <;> rfl

theorem caller?_eq (frame : Frame) : caller? walk bank frame = .ok (walk.caller? bank frame) := by
  unfold caller? StackWalk.caller?
  rw [recordedCaller?_eq hmemory]
  change (Except.ok (walk.recordedCaller? frame) >>= _) = _
  rw [ok_bind]
  cases walk.recordedCaller? frame with
  | none =>
    simp only [linkedCaller?_eq hbank]
    rfl
  | some caller => rfl

theorem framesFrom_eq (limit : Nat) (frame : Frame) :
    framesFrom walk bank limit frame = .ok (walk.framesFrom bank limit frame) := by
  induction limit generalizing frame with
  | zero => rfl
  | succ limit ih =>
    unfold framesFrom StackWalk.framesFrom
    rw [caller?_eq hmemory hbank, ok_bind]
    cases walk.caller? bank frame with
    | none => rfl
    | some caller =>
      simp only [ih]
      rfl

theorem frames_eq (limit : Nat) : frames walk bank limit = .ok (walk.frames bank limit) := by
  unfold frames
  simp only [registerAddress_eq hbank, ok_bind]
  exact framesFrom_eq hmemory hbank limit _

end Frames

section Stops

/-- The stop of an exception on Windows, whose parameters are items of a row. -/
def windowsStop (record : ExceptionRecord) : Except Trap ThreadStop := do
  let name := (ThreadStop.windowsName? record.code).getD
    ("exception 0x" ++ Hex.fixed 8 record.code.toNat)
  if ThreadStop.isAccess record.code ∧ record.parameterCount ≥ 2 then
    let kind ← item record.information.toList 0
    let target ← item record.information.toList 1
    return ⟨.exception record.code,
      name ++ ": " ++ ThreadStop.accessName kind ++ " of " ++ (Address.mk target).text,
      some ⟨target⟩⟩
  else
    let place : Address := ⟨record.address⟩
    return ⟨.exception record.code, name ++ " at " ++ place.text, some place⟩

def stopOf (platform : Platform) (record : ExceptionRecord) : Except Trap ThreadStop :=
  if record.code = ThreadStop.requested then return ThreadStop.quiet
  else
    match platform with
    | .windows => windowsStop record
    | .macos | .ios => return ThreadStop.ofMach record
    | _ => return ThreadStop.ofSignal record

theorem windowsStop_eq (record : ExceptionRecord) :
    windowsStop record = .ok (ThreadStop.ofWindows record) := by
  have hkind : record.information.toList[0]? = some record.information[0] := by simp
  have htarget : record.information.toList[1]? = some record.information[1] := by simp
  unfold windowsStop ThreadStop.ofWindows
  simp only
  split
  · rw [item_eq hkind, ok_bind, item_eq htarget]
    rfl
  · rfl

theorem stopOf_eq (platform : Platform) (record : ExceptionRecord) :
    stopOf platform record = .ok (ThreadStop.ofException platform record) := by
  unfold stopOf ThreadStop.ofException
  split
  · rfl
  · cases platform with
    | windows => exact windowsStop_eq record
    | _ => rfl

end Stops

/-- The registers at a location, with the context cut out of the dump by a checked sum. -/
def registersAt (c : Container) (tag : UInt16) (platform : Platform) (thread : UInt32)
    (location : Location) : Except SnapshotFault (Option RegisterBank × List Diagnostic) :=
  if location.size = 0 then return (none, [.unusableContext thread "no context recorded"])
  else do
    let bytes ← Malformed.lift (located c location)
    match RegisterBank.ofContext tag platform bytes with
    | .ok bank => return (some bank, [])
    | .error (.malformed fault) => return (none, [.unusableContext thread fault.message])
    | .error fault => throw fault

theorem registersAt_eq {c : Container} (hc : Holdable c) (tag : UInt16) (platform : Platform)
    (thread : UInt32) (location : Location) : registersAt c tag platform thread location =
      Thread.registersAt c tag platform thread location := by
  unfold registersAt Thread.registersAt
  rw [located_eq hc]
  rfl

def stopFor (platform : Platform) (exception : Option ExceptionStream) :
    Except Trap ThreadStop :=
  match exception with
  | some stream => stopOf platform stream.record
  | none => return ThreadStop.quiet

def framesFor (walk : StackWalk) (limit : Nat) (registers : Option RegisterBank) :
    Except Trap (List Frame) :=
  match registers with
  | some bank => frames walk bank limit
  | none => return []

theorem stopFor_eq (platform : Platform) (exception : Option ExceptionStream) :
    stopFor platform exception =
      .ok (match exception with
        | some stream => ThreadStop.ofException platform stream.record
        | none => ThreadStop.quiet) := by
  cases exception with
  | none => rfl
  | some stream => exact stopOf_eq platform stream.record

theorem framesFor_eq {walk : StackWalk} (hmemory : walk.memory.Reachable) (limit : Nat)
    (registers : Option RegisterBank) : (∀ bank ∈ registers, bank.layout ∈ RegisterLayout.all) →
      framesFor walk limit registers =
        .ok (match registers with
          | some bank => walk.frames bank limit
          | none => []) := by
  intro hlayout
  cases registers with
  | none => rfl
  | some bank => exact frames_eq hmemory (hlayout bank rfl) limit

/-- The thread that a record describes. -/
def threadOf (c : Container) (tag : UInt16) (walk : StackWalk) (limit : Nat)
    (exception : Option ExceptionStream) (record : ThreadRecord) :
    Guarded SnapshotFault (Thread × List Diagnostic) := do
  let (registers, reports) ← pass (registersAt c tag walk.platform record.id
    (Thread.contextLocation exception record))
  let stop ← stopFor walk.platform (Thread.exceptionOf exception record)
  let frames ← framesFor walk limit registers
  return ({
    id := record.id
    registers := registers
    stop := stop
    stack := record.stackRange?
    suspendCount := record.suspendCount
    teb := record.teb
    frames := frames }, reports)

theorem threadOf_eq {c : Container} (hc : Holdable c) {walk : StackWalk}
    (hmemory : walk.memory.Reachable) (tag : UInt16) (limit : Nat)
    (exception : Option ExceptionStream) (record : ThreadRecord) :
    threadOf c tag walk limit exception record =
      pass (Thread.ofRecord c tag walk limit exception record) := by
  unfold threadOf Thread.ofRecord
  rw [registersAt_eq hc]
  refine pass_bind fun result hresult => ?_
  obtain ⟨registers, reports⟩ := result
  have hlayout : ∀ bank ∈ registers, bank.layout ∈ RegisterLayout.all := by
    intro bank hbank
    rw [Option.mem_def.1 hbank] at hresult
    obtain ⟨context, hcontext⟩ := Thread.exists_ofContext_of_registersAt hresult
    exact (RegisterBank.filled_of_ofContext hcontext).1.layout
  simp only [stopFor_eq, framesFor_eq hmemory limit registers hlayout, lift_bind]
  rfl

end Machine
end CrashDump

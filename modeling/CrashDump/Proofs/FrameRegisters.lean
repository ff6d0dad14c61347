import CrashDump.Proofs.Backtrace
import CrashDump.Proofs.RegisterSlices

/-!
# Registers of frames

Asked for by name, the program counter and the frame pointer of a frame are those of the backtrace.
The stack pointer is cut to the width of its register. A record at the very end of a 32-bit address
space puts the caller's stack pointer beyond that.
-/
namespace CrashDump

theorem RegisterEntry.sameSlice_iff {entry other : RegisterEntry} : entry.sameSlice other = true ↔
    entry.offset = other.offset ∧ entry.width = other.width := by
  simp [sameSlice]

theorem Thread.exists_ofContext_of_registersAt {c : Container} {tag : UInt16}
    {platform : Platform} {id : UInt32} {location : Location} {bank : RegisterBank}
    {reports : List Diagnostic}
    (h : registersAt c tag platform id location = .ok (some bank, reports)) :
    ∃ context, RegisterBank.ofContext tag platform context = .ok bank := by
  unfold registersAt at h
  split at h
  · simp at h
  · obtain ⟨context, _, hcontext⟩ := bind_eq_ok.1 h
    split at hcontext
    · next read hread =>
      obtain rfl : read = bank := by simpa using (Prod.mk.inj (Except.ok.inj hcontext)).1
      exact ⟨context, hread⟩
    · simp at hcontext
    · simp at hcontext

namespace Snapshot

open RegisterLayout

variable {s : Snapshot} {thread : Thread} {bank : RegisterBank} {frame caller : Frame}
  {a value : Address} {name : String} {limit t k : Nat}

/-- An address that a pointer of the process can hold. -/
def FitsPointer (s : Snapshot) (a : Address) : Prop :=
  a.toNat < 2 ^ (8 * s.architecture.pointerSize)

theorem fitsPointer_iff : s.FitsPointer a ↔ (s.architecture = .arm → a.toNat < 2 ^ 32) := by
  have hlt : a.toNat < 2 ^ 64 := a.toNat_lt
  rw [FitsPointer]
  cases s.architecture with
  | amd64 => simpa [Architecture.pointerSize] using hlt
  | arm => simp [Architecture.pointerSize]
  | arm64 => simpa [Architecture.pointerSize] using hlt

/-- Registers as the processor of the process has them. -/
structure Suits (s : Snapshot) (bank : RegisterBank) : Prop where
  filled : bank.Filled
  architecture : bank.architecture = s.architecture

theorem Steps.Lead.suits {data : Buffer} {options : LoadOptions} {disk : Disk} {steps : Steps}
    (lead : steps.Lead data options disk s) (hthread : thread ∈ s.threads)
    (hbank : thread.registers = some bank) : s.Suits bank := by
  obtain ⟨record, reports, hregisters, _⟩ := lead.exists_record hthread
  rw [hbank] at hregisters
  obtain ⟨context, hcontext⟩ := Thread.exists_ofContext_of_registersAt hregisters
  obtain ⟨hfilled, htag⟩ := RegisterBank.filled_of_ofContext hcontext
  have harchitecture := lead.architecture
  rw [architectureOf, htag] at harchitecture
  exact ⟨hfilled, Except.ok.inj harchitecture⟩

theorem Shows.fitsPointer (h : s.Shows a value) : s.FitsPointer value := by
  obtain ⟨bytes, hread, hvalue⟩ := h
  have hlt := LittleEndian.value_lt bytes.bytes
  rwa [hvalue, Buffer.length_bytes, (read_eq_full_iff.1 hread).2, LittleEndian.count_eq] at hlt

theorem Records.fitsPointer (h : s.Records frame caller) :
    s.FitsPointer caller.pc ∧ s.FitsPointer caller.fp := by
  have hfields := h.fields
  split at hfields
  · obtain ⟨⟨_, _, hfp⟩, hpc, _⟩ := hfields
    exact ⟨hpc.fitsPointer, hfp.fitsPointer⟩
  · obtain ⟨hfp, ⟨_, _, hpc⟩, _⟩ := hfields
    exact ⟨hpc.fitsPointer, hfp.fitsPointer⟩

theorem Calls.fitsPointer (hs : s.Suits bank) (h : s.Calls bank frame caller)
    (hfp : s.FitsPointer frame.fp) : s.FitsPointer caller.pc ∧ s.FitsPointer caller.fp := by
  rcases h.origin with ⟨_, hrecord⟩ | ⟨_, _, _, hlinks⟩
  · exact hrecord.fitsPointer
  · have hlr := hs.filled.lr?_lt hlinks.register
    rw [hs.architecture] at hlr
    rw [hlinks.fp_eq]
    exact ⟨hlr, hfp⟩

theorem fitsPointer_of_frames (hs : s.Suits bank)
    (hframe : (s.walk.frames bank limit)[k]? = some frame) :
    s.FitsPointer frame.pc ∧ s.FitsPointer frame.fp := by
  induction k generalizing frame with
  | zero =>
    have hpc := hs.filled.address_lt (show "pc" ∈ frameNames by decide)
    have hfp := hs.filled.address_lt (show "fp" ∈ frameNames by decide)
    rw [hs.architecture] at hpc hfp
    rw [eq_innermost hframe]
    exact ⟨hpc, hfp⟩
  | succ k ih =>
    obtain ⟨callee, hcallee, hcalls⟩ := exists_calls_of_frames hframe
    exact hcalls.fitsPointer hs (ih hcallee).2

theorem eq_of_mem_recovered (h : (name, a) ∈ recovered frame)
    (h' : (name, value) ∈ recovered frame) : a = value := by
  simp only [recovered, List.mem_cons, Prod.mk.injEq, List.not_mem_nil, or_false] at h h'
  rcases h with ⟨rfl, rfl⟩ | ⟨rfl, rfl⟩ | ⟨rfl, rfl⟩
  all_goals simpa [eq_comm] using h'

theorem mem_frameNames (h : (name, a) ∈ recovered frame) : name ∈ frameNames :=
  List.mem_map_of_mem (f := Prod.fst) h

/-- An entry with the slice of a frame register shows that and no other. -/
theorem recoveredValue?_of_sameSlice {layout : RegisterLayout} {own entry : RegisterEntry}
    (hlayout : layout ∈ all) (hmem : (name, a) ∈ recovered frame)
    (hown : layout.lookup? name = some own) (hsame : own.sameSlice entry = true) :
    recoveredValue? layout frame entry =
      some ⟨(LittleEndian.bytes 8 a.toNat).take entry.width⟩ := by
  obtain ⟨first, hfirst, _, _, hunique⟩ :=
    exists_frame_entry layout hlayout name (mem_frameNames hmem)
  obtain rfl := Option.some.inj (hown.symm.trans hfirst)
  rw [recoveredValue?, find?_of_unique hmem]
  · rfl
  · exact (Option.any_eq_true _ _).2 ⟨own, hown, hsame⟩
  · rintro ⟨other, found⟩ hother hknown
    obtain ⟨slice, hslice, hslice'⟩ := (Option.any_eq_true _ _).1 hknown
    have hboth : slice.sameSlice own = true := by
      rw [RegisterEntry.sameSlice_iff] at hsame hslice' ⊢
      exact ⟨hslice'.1.trans hsame.1.symm, hslice'.2.trans hsame.2.symm⟩
    obtain rfl := hunique other (mem_frameNames hother) slice hslice hboth
    rw [eq_of_mem_recovered hother hmem]

/-- The slice of a frame register gives back the name it was looked up by. -/
theorem recoveredValue?_eq {layout : RegisterLayout} (hlayout : layout ∈ all)
    (hmem : (name, a) ∈ recovered frame) : ∃ entry, layout.lookup? name = some entry ∧
      recoveredValue? layout frame entry =
        some ⟨(LittleEndian.bytes 8 a.toNat).take layout.kind.architecture.pointerSize⟩ := by
  obtain ⟨entry, hentry, hwidth, _, _⟩ :=
    exists_frame_entry layout hlayout name (mem_frameNames hmem)
  refine ⟨entry, hentry, ?_⟩
  rw [recoveredValue?_of_sameSlice hlayout hmem hentry (RegisterEntry.sameSlice_iff.2 ⟨rfl, rfl⟩),
    hwidth]

theorem register_zero (hthread : s.thread t = .ok thread) (hbank : thread.registers = some bank) :
    s.register t 0 name = bank.read name := by
  simp [register, Thread.bank, hthread, hbank, bind, Except.bind]

theorem register_of_beyond (hthread : s.thread t = .ok thread) (hframe : thread.frames[k]? = none)
    (hk : 1 ≤ k) (name : String) : s.register t k name = .error (.frameUnavailable t k) := by
  have hne : k ≠ 0 := Nat.ne_of_gt hk
  simp [register, hthread, hframe, hne, bind, Except.bind]

theorem register_of_frame (hthread : s.thread t = .ok thread) (hbank : thread.registers = some bank)
    (hframe : thread.frames[k]? = some frame) (hk : 1 ≤ k) (name : String) :
    s.register t k name =
      (bank.layout.lookup? name).elim (.error (.unknownRegister name)) fun entry =>
        (recoveredValue? bank.layout frame entry).elim
          (.error (.registerUnavailable name k)) .ok := by
  have hne : k ≠ 0 := Nat.ne_of_gt hk
  simp only [register, Thread.bank, hthread, hbank, hframe, if_neg hne, bind, Except.bind]
  cases bank.layout.lookup? name with
  | none => rfl
  | some entry =>
    simp only [Option.elim_some]
    cases recoveredValue? bank.layout frame entry with
    | none => rfl
    | some value => rfl

theorem register_outer (hs : s.Suits bank) (hthread : s.thread t = .ok thread)
    (hbank : thread.registers = some bank) (hframe : thread.frames[k + 1]? = some frame)
    (hmem : (name, a) ∈ recovered frame) : s.register t (k + 1) name =
      .ok ⟨(LittleEndian.bytes 8 a.toNat).take s.architecture.pointerSize⟩ := by
  obtain ⟨entry, hentry, hvalue⟩ := recoveredValue?_eq hs.filled.layout hmem
  rw [register_of_frame hthread hbank hframe (Nat.le_add_left 1 k), ← hs.architecture]
  simp only [hentry, hvalue, Option.elim_some, RegisterBank.architecture]

theorem mem_recovered_innermost (hname : name ∈ frameNames) :
    (name, bank.address name) ∈ recovered (StackWalk.innermost bank) := by
  simp only [frameNames, List.mem_cons, List.not_mem_nil, or_false] at hname
  rcases hname with rfl | rfl | rfl
  all_goals simp [recovered, StackWalk.innermost, RegisterBank.pc, RegisterBank.sp, RegisterBank.fp]

/-- A register of a frame is what the frame says, as far as the register is wide. -/
theorem exists_register (hs : s.Suits bank) (hthread : s.thread t = .ok thread)
    (hbank : thread.registers = some bank) (hframes : thread.frames = s.walk.frames bank limit)
    (hframe : thread.frames[k]? = some frame) (hmem : (name, a) ∈ recovered frame) :
    ∃ value, s.register t k name = .ok value ∧
      value.low 8 = a.toNat % 2 ^ (8 * s.architecture.pointerSize) := by
  cases k with
  | zero =>
    have hname := mem_frameNames hmem
    obtain ⟨value, hread, _⟩ := hs.filled.exists_read hname
    have hvalue : bank.address name = value.address := by rw [RegisterBank.address, hread]
    rw [hframes] at hframe
    rw [eq_innermost hframe] at hmem
    have ha : (name, bank.address name) ∈ recovered (StackWalk.innermost bank) :=
      mem_recovered_innermost hname
    have hlt := hs.filled.address_lt hname
    rw [hvalue, RegisterValue.toNat_address, hs.architecture] at hlt
    refine ⟨value, (register_zero hthread hbank).trans hread, ?_⟩
    rw [eq_of_mem_recovered hmem ha, hvalue, RegisterValue.toNat_address, Nat.mod_eq_of_lt hlt]
  | succ k =>
    exact ⟨_, register_outer hs hthread hbank hframe hmem,
      RegisterValue.low_take_bytes s.architecture.pointerSize_le a.toNat⟩

theorem thread_eq_ok_iff : s.thread t = .ok thread ↔ s.threads[t]? = some thread := by
  unfold Snapshot.thread
  cases s.threads[t]? with
  | none => simp
  | some found => simp

/-- All three registers of a frame can be asked for. Two are as the frame says, and so is the stack
pointer unless it lies above all that 32 bits can count. -/
theorem frame_registers {data : Buffer} {options : LoadOptions} {disk : Disk}
    (h : load data options disk = .ok s) (hthread : s.thread t = .ok thread)
    (hbank : thread.registers = some bank) (hframe : thread.frames[k]? = some frame) :
    ∃ pc sp fp, s.register t k "pc" = .ok pc ∧ s.register t k "sp" = .ok sp ∧
      s.register t k "fp" = .ok fp ∧
      pc.low 8 = frame.pc.toNat ∧ fp.low 8 = frame.fp.toNat ∧
      sp.low 8 = frame.sp.toNat % 2 ^ (8 * s.architecture.pointerSize) ∧
      (sp.low 8 = frame.sp.toNat ↔ (s.architecture = .arm → frame.sp.toNat < 2 ^ 32)) := by
  obtain ⟨steps, lead⟩ := exists_steps h
  have hmem := List.mem_of_getElem? (thread_eq_ok_iff.1 hthread)
  have hs := lead.suits hmem hbank
  have hframes := lead.frames_eq hmem hbank
  have hregister : ∀ name a, (name, a) ∈ recovered frame → ∃ value,
      s.register t k name = .ok value ∧
        value.low 8 = a.toNat % 2 ^ (8 * s.architecture.pointerSize) :=
    fun name a hmem => exists_register hs hthread hbank hframes hframe hmem
  rw [hframes] at hframe
  obtain ⟨hpc, hfp⟩ := fitsPointer_of_frames hs hframe
  obtain ⟨pc, hpcRegister, hpcValue⟩ := hregister "pc" frame.pc (by simp [recovered])
  obtain ⟨sp, hspRegister, hspValue⟩ := hregister "sp" frame.sp (by simp [recovered])
  obtain ⟨fp, hfpRegister, hfpValue⟩ := hregister "fp" frame.fp (by simp [recovered])
  rw [Nat.mod_eq_of_lt hpc] at hpcValue
  rw [Nat.mod_eq_of_lt hfp] at hfpValue
  refine ⟨pc, sp, fp, hpcRegister, hspRegister, hfpRegister, hpcValue, hfpValue, hspValue, ?_⟩
  have hpow : 2 ^ (8 * s.architecture.pointerSize) ≠ 0 := by positivity
  rw [hspValue, Nat.mod_eq_iff_lt hpow, ← fitsPointer_iff, FitsPointer]

theorem frame_registers_called : ∃ s t thread bank pc sp fp,
    load called .standard noFiles = .ok s ∧ s.thread t = .ok thread ∧
    thread.registers = some bank ∧
    thread.frames[1]? = some ⟨1, ⟨0x8000⟩, ⟨0x1008⟩, ⟨0⟩, .framePointer⟩ ∧
    s.register t 1 "pc" = .ok pc ∧ s.register t 1 "sp" = .ok sp ∧ s.register t 1 "fp" = .ok fp ∧
    pc.low 8 = 0x8000 ∧ sp.low 8 = 0x1008 ∧ fp.low 8 = 0 := by
  obtain ⟨s, thread, bank, hs, hmem, hbank, hframes⟩ := load_called
  obtain ⟨t, ht⟩ := List.getElem?_of_mem hmem
  have hthread := thread_eq_ok_iff.2 ht
  have hframe : thread.frames[1]? = some ⟨1, ⟨0x8000⟩, ⟨0x1008⟩, ⟨0⟩, .framePointer⟩ := by
    rw [hframes]
    rfl
  obtain ⟨pc, sp, fp, hpc, hsp, hfp, hpcValue, hfpValue, _, hspValue⟩ :=
    frame_registers hs hthread hbank hframe
  exact ⟨s, t, thread, bank, pc, sp, fp, hs, hthread, hbank, hframe, hpc, hsp, hfp, hpcValue,
    hspValue.2 fun _ => by decide, hfpValue⟩

/-- A dump of a thread on 32-bit ARM whose frame record is the last word of the address space. -/
def calledAtTop : Buffer :=
  let header : Header := ⟨Container.signature, 0, 2, 32, 0, 0, 0⟩
  let directory : List DirectoryEntry := [⟨StreamKind.systemInfo.tag, 56, 56⟩,
    ⟨StreamKind.threadList.tag, 52, 112⟩]
  let system : SystemInfo := ⟨5, 0, 0, 1, 0, 0, 0, 0, 0x8201, 0, 0, 0, Vector.replicate 24 0⟩
  let thread : ThreadRecord := ⟨1, 0, 0, 0, 0, ⟨0xfffffff8, 8, 164⟩, ⟨368, 172⟩⟩
  let stack : List UInt32 := [0, 0x8000]
  let registers : List UInt32 := [0xfffffffc, 0, 0xfffffff0, 0x9000, 0x8100]
  Buffer.ofBytes (Record.write header ++ directory.flatMap Record.write ++ Record.write system ++
    Record.write (1 : UInt32) ++ Record.write thread ++ stack.flatMap Record.write ++
    List.replicate 48 0 ++ registers.flatMap Record.write ++ List.replicate 300 0)

/-- The stack pointer of a caller above the address space is cut to zero. -/
theorem exists_register_ne : ∃ s thread bank sp,
    load calledAtTop .standard noFiles = .ok s ∧ s.thread 0 = .ok thread ∧
    thread.registers = some bank ∧
    thread.frames[1]? = some ⟨1, ⟨0x8000⟩, ⟨0x100000000⟩, ⟨0⟩, .framePointer⟩ ∧
    s.register 0 1 "sp" = .ok sp ∧ sp.low 8 = 0 := by
  have h : (load calledAtTop .standard noFiles).toOption.map
      (fun s => (s.architecture, (s.thread 0).toOption.map fun thread =>
        (thread.registers.isSome, thread.frames[1]?))) =
      some (.arm, some (true, some ⟨1, ⟨0x8000⟩, ⟨0x100000000⟩, ⟨0⟩, .framePointer⟩)) := by
    decide +kernel
  obtain ⟨s, hs, hseen⟩ := exists_ok_of_map h
  obtain ⟨harm, hseen⟩ := Prod.mk.inj hseen
  obtain ⟨thread, hthread, hseen⟩ := exists_ok_of_map hseen
  obtain ⟨hsome, hframe⟩ := Prod.mk.inj hseen
  obtain ⟨bank, hbank⟩ := Option.isSome_iff_exists.1 hsome
  obtain ⟨steps, lead⟩ := exists_steps hs
  have hsuits := lead.suits (List.mem_of_getElem? (thread_eq_ok_iff.1 hthread)) hbank
  have hregister : s.register 0 1 "sp" = .ok ⟨[0, 0, 0, 0]⟩ := by
    rw [register_outer hsuits hthread hbank hframe (.tail _ (.head _)), harm]
    rfl
  exact ⟨s, thread, bank, _, hs, hthread, hbank, hframe, hregister, rfl⟩

end Snapshot
end CrashDump

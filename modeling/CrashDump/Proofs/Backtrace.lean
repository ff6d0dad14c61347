import CrashDump.Proofs.SnapshotMemory

/-!
# Backtraces

The frames of a thread are the chain of frame records that reads of memory show, from the frame of
its registers on. A link register can give one frame more, in place of a first record that is not
there, and the chain ends with it.
-/
namespace CrashDump

namespace StackWalk

variable {walk : StackWalk} {bank : RegisterBank} {limit : Nat} {frame caller last : Frame}

theorem framesFrom_of_none (h : walk.caller? bank frame = none) :
    walk.framesFrom bank (limit + 1) frame = [frame] := by
  rw [framesFrom, h]

theorem framesFrom_of_some (h : walk.caller? bank frame = some caller) :
    walk.framesFrom bank (limit + 1) frame = frame :: walk.framesFrom bank limit caller := by
  rw [framesFrom, h]

theorem exists_framesFrom (h : 0 < limit) :
    ∃ callers, walk.framesFrom bank limit frame = frame :: callers := by
  obtain ⟨limit, rfl⟩ := Nat.exists_eq_succ_of_ne_zero (Nat.pos_iff_ne_zero.1 h)
  exact ⟨_, rfl⟩

theorem length_framesFrom_le : (walk.framesFrom bank limit frame).length ≤ limit := by
  induction limit generalizing frame with
  | zero => exact Nat.le_refl 0
  | succ limit ih =>
    cases hcaller : walk.caller? bank frame with
    | none => simp [framesFrom_of_none hcaller]
    | some caller => simpa [framesFrom_of_some hcaller] using ih

theorem isChain_framesFrom : (walk.framesFrom bank limit frame).IsChain
    fun callee caller => walk.caller? bank callee = some caller := by
  induction limit generalizing frame with
  | zero => exact List.isChain_nil
  | succ limit ih =>
    cases hcaller : walk.caller? bank frame with
    | none =>
      rw [framesFrom_of_none hcaller]
      exact List.isChain_singleton _
    | some caller =>
      rw [framesFrom_of_some hcaller]
      cases limit with
      | zero => exact List.isChain_singleton _
      | succ limit =>
        obtain ⟨callers, hcallers⟩ := exists_framesFrom limit.succ_pos
        rw [hcallers, List.isChain_cons_cons, ← hcallers]
        exact ⟨hcaller, ih⟩

/-- A walk that stops before its limit stops at a frame without a caller. -/
theorem caller?_getLast? (hlt : (walk.framesFrom bank limit frame).length < limit)
    (hlast : (walk.framesFrom bank limit frame).getLast? = some last) :
    walk.caller? bank last = none := by
  induction limit generalizing frame with
  | zero => exact absurd hlt (Nat.not_lt_zero _)
  | succ limit ih =>
    cases hcaller : walk.caller? bank frame with
    | none =>
      rw [framesFrom_of_none hcaller] at hlast
      obtain rfl : frame = last := by simpa using hlast
      exact hcaller
    | some caller =>
      rw [framesFrom_of_some hcaller] at hlt hlast
      have hrest : (walk.framesFrom bank limit caller).length < limit := by simpa using hlt
      obtain ⟨callers, hcallers⟩ := exists_framesFrom (Nat.zero_lt_of_lt hrest)
      rw [hcallers, List.getLast?_cons_cons, ← hcallers] at hlast
      exact ih hrest hlast

end StackWalk

namespace Snapshot

variable {s : Snapshot} {bank : RegisterBank} {a value : Address} {frame caller : Frame}

/-- What the frames of a snapshot are recovered with. -/
def walk (s : Snapshot) : StackWalk := ⟨s.architecture, s.platform, s.memory⟩

/-- A read of one pointer at an address is full and gives the value. -/
def Shows (s : Snapshot) (a value : Address) : Prop :=
  ∃ bytes, s.read a s.architecture.pointerSize = .full bytes ∧
    LittleEndian.value bytes.bytes = value.toNat

theorem word?_eq_some_iff : s.walk.word? a = some value ↔ s.Shows a value := by
  have hcount : LittleEndian.count s.architecture.pointerSize ≤ UInt64.size := by
    cases s.architecture <;> decide
  rw [StackWalk.word?, Captured.word, walk, Shows]
  simp only [read_eq_full_iff, and_assoc, exists_eq_left']
  by_cases hsize : (s.memory.read a s.architecture.pointerSize).1.size = s.architecture.pointerSize
  · have hlt := LittleEndian.value_lt (s.memory.read a s.architecture.pointerSize).1.bytes
    rw [Buffer.length_bytes, hsize] at hlt
    have hvalue := Address.toNat_ofNat (Nat.lt_of_lt_of_le hlt hcount)
    rw [if_pos hsize, and_iff_right hsize, ← hvalue, Address.toNat_inj, hvalue]
    exact Option.some_inj
  · simp [hsize, Except.toOption]

/-- The caller of a frame as the frame record says it, at the place the frame pointer points at. -/
structure Records (s : Snapshot) (frame caller : Frame) : Prop where
  based : frame.fp ≠ Address.zero
  fields : if s.architecture = .arm ∧ s.platform.isApple = false then
      (∃ saved : Address, saved.toNat + 4 = frame.fp.toNat ∧ s.Shows saved caller.fp) ∧
        s.Shows frame.fp caller.pc ∧ caller.sp.toNat = frame.fp.toNat + 4
    else
      s.Shows frame.fp caller.fp ∧
        (∃ saved : Address, saved.toNat = frame.fp.toNat + s.architecture.pointerSize ∧
          s.Shows saved caller.pc) ∧
        caller.sp.toNat = frame.fp.toNat + 2 * s.architecture.pointerSize
  grows : frame.sp < caller.sp

/-- The caller of the innermost frame as the link register says it. -/
structure Links (s : Snapshot) (bank : RegisterBank) (frame caller : Frame) : Prop where
  processor : s.architecture = .arm ∨ s.architecture = .arm64
  register : bank.lr? = some caller.pc
  pc_ne_zero : caller.pc ≠ Address.zero
  pc_ne : caller.pc ≠ frame.pc
  sp_eq : caller.sp = frame.sp
  fp_eq : caller.fp = frame.fp

theorem recordedCaller?_eq_some_iff : s.walk.recordedCaller? frame = some caller ↔
    caller.index = frame.index + 1 ∧ caller.status = .framePointer ∧ s.Records frame caller := by
  unfold StackWalk.recordedCaller?
  by_cases hbased : frame.fp = Address.zero
  · have hno : ¬s.Records frame caller := fun h => h.based hbased
    simp [hbased, hno]
  by_cases hdown : s.architecture = .arm ∧ s.platform.isApple = false
  · have hof : FrameRecord.of s.walk.architecture s.walk.platform = .downward := by
      simpa [FrameRecord.of, walk] using hdown
    have hsize : s.walk.architecture.pointerSize = 4 := congrArg Architecture.pointerSize hdown.1
    simp only [hof, hsize, if_neg hbased, Option.bind_eq_bind, Option.bind_eq_some_iff,
      word?_eq_some_iff, Address.add?_eq_some_iff, Address.sub?_eq_some_iff, Option.pure_def,
      Option.some.injEq, exists_eq_left', Option.ite_none_left_eq_some]
    constructor
    · rintro ⟨saved, hsaved, fp, hfp, pc, hpc, sp, hsp, hgrows, rfl⟩
      refine ⟨rfl, rfl, hbased, ?_, Nat.lt_of_not_le hgrows⟩
      rw [if_pos hdown]
      exact ⟨⟨saved, hsaved, hfp⟩, hpc, hsp⟩
    · rintro ⟨hindex, hstatus, -, hfields, hgrows⟩
      rw [if_pos hdown] at hfields
      obtain ⟨⟨saved, hsaved, hfp⟩, hpc, hsp⟩ := hfields
      exact ⟨saved, hsaved, caller.fp, hfp, caller.pc, hpc, caller.sp, hsp,
        Nat.not_le_of_lt hgrows, by rw [← hindex, ← hstatus]⟩
  · have hof : FrameRecord.of s.walk.architecture s.walk.platform = .upward := by
      simpa [FrameRecord.of, walk] using hdown
    have hsize : s.walk.architecture.pointerSize = s.architecture.pointerSize := rfl
    simp only [hof, hsize, if_neg hbased, Option.bind_eq_bind, Option.bind_eq_some_iff,
      word?_eq_some_iff, Address.add?_eq_some_iff, Option.pure_def, Option.some.injEq,
      exists_eq_left', Option.ite_none_left_eq_some]
    constructor
    · rintro ⟨fp, hfp, saved, hsaved, pc, hpc, sp, hsp, hgrows, rfl⟩
      refine ⟨rfl, rfl, hbased, ?_, Nat.lt_of_not_le hgrows⟩
      rw [if_neg hdown]
      exact ⟨hfp, ⟨saved, hsaved, hpc⟩, hsp⟩
    · rintro ⟨hindex, hstatus, -, hfields, hgrows⟩
      rw [if_neg hdown] at hfields
      obtain ⟨hfp, ⟨saved, hsaved, hpc⟩, hsp⟩ := hfields
      exact ⟨caller.fp, hfp, saved, hsaved, caller.pc, hpc, caller.sp, hsp,
        Nat.not_le_of_lt hgrows, by rw [← hindex, ← hstatus]⟩

theorem Records.congr {callee other : Frame} (h : s.Records callee caller)
    (hsp : callee.sp = frame.sp) (hfp : callee.fp = frame.fp) (hpc : caller.pc = other.pc)
    (hsp' : caller.sp = other.sp) (hfp' : caller.fp = other.fp) : s.Records frame other := by
  obtain ⟨hbased, hfields, hgrows⟩ := h
  rw [hsp, hsp'] at hgrows
  rw [hfp] at hbased
  rw [hfp, hpc, hsp', hfp'] at hfields
  exact ⟨hbased, hfields, hgrows⟩

theorem recordedCaller?_eq_none_iff :
    s.walk.recordedCaller? frame = none ↔ ∀ caller, ¬s.Records frame caller := by
  rw [Option.eq_none_iff_forall_ne_some]
  constructor
  · intro hnone caller hrecord
    exact hnone ⟨frame.index + 1, caller.pc, caller.sp, caller.fp, .framePointer⟩
      (recordedCaller?_eq_some_iff.2 ⟨rfl, rfl, hrecord.congr rfl rfl rfl rfl rfl⟩)
  · intro hno caller hcaller
    exact hno caller (recordedCaller?_eq_some_iff.1 hcaller).2.2

theorem linkedCaller?_eq_some_iff : s.walk.linkedCaller? bank frame = some caller ↔
    caller.index = frame.index + 1 ∧ caller.status = .linkRegister ∧ frame.status = .context ∧
      s.Links bank frame caller := by
  have hprocessor : ¬s.walk.architecture = .amd64 ↔
      s.architecture = .arm ∨ s.architecture = .arm64 := by
    change ¬s.architecture = .amd64 ↔ _
    cases s.architecture <;> decide
  rw [StackWalk.linkedCaller?, Option.ite_none_left_eq_some, not_or, not_not, hprocessor]
  constructor
  · rintro ⟨⟨hcontext, harm⟩, h⟩
    split at h
    · simp at h
    · next lr hlr =>
      rw [Option.ite_none_left_eq_some, not_or] at h
      obtain ⟨⟨hzero, hpc⟩, h⟩ := h
      obtain rfl := Option.some.inj h
      exact ⟨rfl, rfl, hcontext, harm, hlr, hzero, hpc, rfl, rfl⟩
  · rintro ⟨hindex, hstatus, hcontext, harm, hlr, hzero, hpc, hsp, hfp⟩
    refine ⟨⟨hcontext, harm⟩, ?_⟩
    rw [hlr]
    simp only
    rw [if_neg (not_or.2 ⟨hzero, hpc⟩), ← hindex, ← hstatus, ← hsp, ← hfp]

/-- A frame is called by another: by what its record says, or the first one by what the link register
says where there is no record. -/
structure Calls (s : Snapshot) (bank : RegisterBank) (frame caller : Frame) : Prop where
  index_eq : caller.index = frame.index + 1
  pc_ne_zero : caller.pc ≠ Address.zero
  origin : (caller.status = .framePointer ∧ s.Records frame caller) ∨
    (caller.status = .linkRegister ∧ frame.status = .context ∧
      (∀ other, ¬s.Records frame other) ∧ s.Links bank frame caller)

theorem caller?_eq_some_iff : s.walk.caller? bank frame = some caller ↔
    s.Calls bank frame caller := by
  rw [StackWalk.caller?, Option.filter_eq_some_iff, Option.or_eq_some_iff,
    recordedCaller?_eq_some_iff, recordedCaller?_eq_none_iff, linkedCaller?_eq_some_iff]
  constructor
  · rintro ⟨⟨hindex, hstatus, hrecord⟩ | ⟨hno, hindex, hstatus, hcontext, hlinks⟩, hpc⟩
    · exact ⟨hindex, of_decide_eq_true hpc, .inl ⟨hstatus, hrecord⟩⟩
    · exact ⟨hindex, of_decide_eq_true hpc, .inr ⟨hstatus, hcontext, hno, hlinks⟩⟩
  · rintro ⟨hindex, hpc, ⟨hstatus, hrecord⟩ | ⟨hstatus, hcontext, hno, hlinks⟩⟩
    · exact ⟨.inl ⟨hindex, hstatus, hrecord⟩, decide_eq_true hpc⟩
    · exact ⟨.inr ⟨hno, hindex, hstatus, hcontext, hlinks⟩, decide_eq_true hpc⟩

namespace Calls

theorem status_ne (h : s.Calls bank frame caller) : caller.status ≠ .context := by
  rcases h.origin with ⟨hstatus, _⟩ | ⟨hstatus, _⟩
  · rw [hstatus]
    decide
  · rw [hstatus]
    decide

/-- A frame of the link register has the same record as the frame before, which has none. -/
theorem not_calls {next : Frame} (h : s.Calls bank frame caller)
    (hlink : caller.status = .linkRegister) : ¬s.Calls bank caller next := by
  intro hnext
  rcases h.origin with ⟨hstatus, _⟩ | ⟨_, _, hno, hlinks⟩
  · rw [hstatus] at hlink
    exact FrameStatus.noConfusion hlink
  · rcases hnext.origin with ⟨_, hrecord⟩ | ⟨_, hcontext, _⟩
    · exact hno next (hrecord.congr hlinks.sp_eq hlinks.fp_eq rfl rfl rfl)
    · exact h.status_ne hcontext

end Calls

variable {limit k : Nat} {last : Frame}

theorem calls_of_frames (hframe : (s.walk.frames bank limit)[k]? = some frame)
    (hcaller : (s.walk.frames bank limit)[k + 1]? = some caller) : s.Calls bank frame caller := by
  obtain ⟨_, rfl⟩ := List.getElem?_eq_some_iff.1 hframe
  obtain ⟨hk, rfl⟩ := List.getElem?_eq_some_iff.1 hcaller
  exact caller?_eq_some_iff.1 (List.isChain_iff_getElem.1 StackWalk.isChain_framesFrom k hk)

theorem frames_zero (hlimit : 0 < limit) :
    (s.walk.frames bank limit)[0]? = some (StackWalk.innermost bank) := by
  obtain ⟨callers, hcallers⟩ : ∃ callers, s.walk.frames bank limit = _ :: callers :=
    StackWalk.exists_framesFrom hlimit
  rw [hcallers, List.getElem?_cons_zero]

theorem eq_innermost (hframe : (s.walk.frames bank limit)[0]? = some frame) :
    frame = StackWalk.innermost bank := by
  have hlt := (List.getElem?_eq_some_iff.1 hframe).1
  rw [frames_zero (Nat.lt_of_lt_of_le hlt StackWalk.length_framesFrom_le)] at hframe
  exact (Option.some.inj hframe).symm

theorem exists_calls_of_frames (hframe : (s.walk.frames bank limit)[k + 1]? = some caller) :
    ∃ frame, (s.walk.frames bank limit)[k]? = some frame ∧ s.Calls bank frame caller := by
  have hlt := (List.getElem?_eq_some_iff.1 hframe).1
  have hcallee := List.getElem?_eq_getElem (Nat.lt_of_succ_lt hlt)
  exact ⟨_, hcallee, calls_of_frames hcallee hframe⟩

theorem index_of_frames (hframe : (s.walk.frames bank limit)[k]? = some frame) :
    frame.index = k := by
  induction k generalizing frame with
  | zero => rw [eq_innermost hframe, StackWalk.innermost]
  | succ k ih =>
    obtain ⟨callee, hcallee, hcalls⟩ := exists_calls_of_frames hframe
    rw [hcalls.index_eq, ih hcallee]

theorem context_iff (hframe : (s.walk.frames bank limit)[k]? = some frame) :
    frame.status = .context ↔ k = 0 := by
  cases k with
  | zero => simp [eq_innermost hframe, StackWalk.innermost]
  | succ k =>
    obtain ⟨callee, _, hcalls⟩ := exists_calls_of_frames hframe
    simp [hcalls.status_ne]

theorem length_of_linked (hframe : (s.walk.frames bank limit)[k]? = some frame)
    (hcaller : (s.walk.frames bank limit)[k + 1]? = some caller)
    (hlink : caller.status = .linkRegister) : (s.walk.frames bank limit).length = k + 2 := by
  have hcalls := calls_of_frames hframe hcaller
  have hlt := (List.getElem?_eq_some_iff.1 hcaller).1
  by_contra hlong
  have hmore : k + 2 < (s.walk.frames bank limit).length := by omega
  exact hcalls.not_calls hlink (calls_of_frames hcaller (List.getElem?_eq_getElem hmore))

/-- Where the frames end before the limit, there is no record, or it has no program counter. -/
theorem ends_of_frames (hlast : (s.walk.frames bank limit).getLast? = some last) :
    (s.walk.frames bank limit).length = limit ∨
      ((∀ caller, ¬s.Records last caller) ∧
        (last.status = .context → ∀ caller, ¬s.Links bank last caller)) ∨
      ∃ caller, s.Records last caller ∧ caller.pc = Address.zero := by
  rcases Nat.lt_or_eq_of_le s.walk.length_framesFrom_le with hlt | heq
  · have hnone : ∀ caller, ¬s.Calls bank last caller := by
      intro caller hcalls
      have hcaller := caller?_eq_some_iff.2 hcalls
      rw [StackWalk.caller?_getLast? hlt hlast] at hcaller
      exact Option.some_ne_none _ hcaller.symm
    -- A record or a link register with a program counter would have given a caller.
    by_cases hrecord : ∃ caller, s.Records last caller
    · obtain ⟨caller, hrecord⟩ := hrecord
      refine .inr (.inr ⟨caller, hrecord, ?_⟩)
      by_contra hpc
      exact hnone ⟨last.index + 1, caller.pc, caller.sp, caller.fp, .framePointer⟩
        ⟨rfl, hpc, .inl ⟨rfl, hrecord.congr rfl rfl rfl rfl rfl⟩⟩
    · have hno := not_exists.1 hrecord
      refine .inr (.inl ⟨hno, fun hcontext caller hlinks => ?_⟩)
      exact hnone ⟨last.index + 1, caller.pc, caller.sp, caller.fp, .linkRegister⟩
        ⟨rfl, hlinks.pc_ne_zero, .inr ⟨rfl, hcontext, hno, ⟨hlinks.processor, hlinks.register,
          hlinks.pc_ne_zero, hlinks.pc_ne, hlinks.sp_eq, hlinks.fp_eq⟩⟩⟩
  · exact .inl heq

/-- Where the registers and the frames of a thread are from. -/
theorem Steps.Lead.exists_record {data : Buffer} {options : LoadOptions} {disk : Disk}
    {steps : Steps} (lead : steps.Lead data options disk s) {thread : Thread}
    (hthread : thread ∈ s.threads) : ∃ record reports,
      Thread.registersAt steps.container steps.system.processor s.platform record.id
        (Thread.contextLocation steps.exception record) = .ok (thread.registers, reports) ∧
      thread.frames =
        thread.registers.elim [] fun bank => s.walk.frames bank options.maxFrames := by
  rw [lead.rest.2.2.1, List.mem_map] at hthread
  obtain ⟨⟨_, _⟩, hmem, rfl⟩ := hthread
  obtain ⟨record, _, hrecord⟩ := exists_of_mem_mapM lead.threads hmem
  obtain ⟨⟨registers, reports⟩, hregisters, h⟩ := bind_eq_ok.1 hrecord
  obtain ⟨rfl, _⟩ := Prod.mk.inj (Except.ok.inj h)
  refine ⟨record, reports, hregisters, ?_⟩
  cases registers with
  | none => rfl
  | some bank => rfl

theorem Steps.Lead.frames_eq {data : Buffer} {options : LoadOptions} {disk : Disk} {steps : Steps}
    (lead : steps.Lead data options disk s) {thread : Thread} (hthread : thread ∈ s.threads)
    (hbank : thread.registers = some bank) :
    thread.frames = s.walk.frames bank options.maxFrames := by
  obtain ⟨_, _, _, hframes⟩ := lead.exists_record hthread
  rwa [hbank] at hframes

/-- The frames of a thread are the chain of frame records that reads of memory show, from the frame
of its registers to the limit or to where there is no caller. Only the second frame can be one of
the link register, and nothing follows it then. -/
theorem backtrace_exact {data : Buffer} {options : LoadOptions} {disk : Disk} {thread : Thread}
    (h : load data options disk = .ok s) (hlimit : 1 ≤ options.maxFrames)
    (hthread : thread ∈ s.threads) (hbank : thread.registers = some bank) :
    thread.frames[0]? = some ⟨0, bank.pc, bank.sp, bank.fp, .context⟩ ∧
    (∀ k (frame : Frame), thread.frames[k]? = some frame → frame.index = k) ∧
    (∀ k (frame caller : Frame), thread.frames[k]? = some frame → thread.frames[k + 1]? = some caller →
      caller.pc ≠ Address.zero ∧
      ((caller.status = .framePointer ∧ s.Records frame caller) ∨
        (caller.status = .linkRegister ∧ k = 0 ∧ thread.frames.length = 2 ∧
          (∀ other, ¬s.Records frame other) ∧ s.Links bank frame caller))) ∧
    thread.frames.length ≤ options.maxFrames ∧
    ∃ last, thread.frames.getLast? = some last ∧
      (thread.frames.length = options.maxFrames ∨
        ((∀ caller, ¬s.Records last caller) ∧
          (thread.frames.length = 1 → ∀ caller, ¬s.Links bank last caller)) ∨
        ∃ caller, s.Records last caller ∧ caller.pc = Address.zero) := by
  obtain ⟨steps, lead⟩ := exists_steps h
  rw [lead.frames_eq hthread hbank]
  have hfirst : (s.walk.frames bank options.maxFrames)[0]? = some (StackWalk.innermost bank) :=
    frames_zero hlimit
  refine ⟨hfirst, fun k frame => index_of_frames, fun k frame caller hframe hcaller => ?_,
    StackWalk.length_framesFrom_le, ?_⟩
  · have hcalls := calls_of_frames hframe hcaller
    refine ⟨hcalls.pc_ne_zero, hcalls.origin.imp_right ?_⟩
    rintro ⟨hstatus, hcontext, hno, hlinks⟩
    obtain rfl := (context_iff hframe).1 hcontext
    exact ⟨hstatus, rfl, length_of_linked hframe hcaller hstatus, hno, hlinks⟩
  · have hne : s.walk.frames bank options.maxFrames ≠ [] := List.ne_nil_of_mem
      (List.mem_of_getElem? hfirst)
    have hlast := List.getLast?_eq_some_getLast hne
    refine ⟨_, hlast, (ends_of_frames hlast).imp_right (.imp_left fun hnone => ?_)⟩
    refine ⟨hnone.1, fun hone => hnone.2 ?_⟩
    rw [List.getLast?_eq_getElem?, hone] at hlast
    exact (context_iff hlast).2 rfl

/-- A dump of a thread on 32-bit ARM with one frame record on its stack. -/
def called : Buffer :=
  let header : Header := ⟨Container.signature, 0, 2, 32, 0, 0, 0⟩
  let directory : List DirectoryEntry := [⟨StreamKind.systemInfo.tag, 56, 56⟩,
    ⟨StreamKind.threadList.tag, 52, 112⟩]
  let system : SystemInfo := ⟨5, 0, 0, 1, 0, 0, 0, 0, 0x8201, 0, 0, 0, Vector.replicate 24 0⟩
  let thread : ThreadRecord := ⟨1, 0, 0, 0, 0, ⟨0x1000, 8, 164⟩, ⟨368, 172⟩⟩
  let stack : List UInt32 := [0, 0x8000]
  let registers : List UInt32 := [0x1004, 0, 0x1000, 0x9000, 0x8100]
  Buffer.ofBytes (Record.write header ++ directory.flatMap Record.write ++ Record.write system ++
    Record.write (1 : UInt32) ++ Record.write thread ++ stack.flatMap Record.write ++
    List.replicate 48 0 ++ registers.flatMap Record.write ++ List.replicate 300 0)

theorem load_called_eq : (load called .standard noFiles).toOption.map (fun s =>
      (s.architecture, s.platform,
        s.threads.map fun thread => (thread.registers.isSome, thread.frames))) =
    some (.arm, .linux, [(true, [⟨0, ⟨0x8100⟩, ⟨0x1000⟩, ⟨0x1004⟩, .context⟩,
      ⟨1, ⟨0x8000⟩, ⟨0x1008⟩, ⟨0⟩, .framePointer⟩])]) := by
  decide +kernel

theorem load_called : ∃ s thread bank, load called .standard noFiles = .ok s ∧
    thread ∈ s.threads ∧ thread.registers = some bank ∧
    thread.frames = [⟨0, ⟨0x8100⟩, ⟨0x1000⟩, ⟨0x1004⟩, .context⟩,
      ⟨1, ⟨0x8000⟩, ⟨0x1008⟩, ⟨0⟩, .framePointer⟩] := by
  obtain ⟨s, hs, hseen⟩ := exists_ok_of_map load_called_eq
  obtain ⟨_, hseen⟩ := Prod.mk.inj hseen
  obtain ⟨_, hthreads⟩ := Prod.mk.inj hseen
  obtain ⟨thread, hthread, hframes⟩ := List.map_eq_singleton_iff.1 hthreads
  obtain ⟨hsome, hframes⟩ := Prod.mk.inj hframes
  obtain ⟨bank, hbank⟩ := Option.isSome_iff_exists.1 hsome
  exact ⟨s, thread, bank, hs, by simp [hthread], hbank, hframes⟩

theorem backtrace_exact_called : ∃ s thread bank frame caller,
    load called .standard noFiles = .ok s ∧ 1 ≤ LoadOptions.standard.maxFrames ∧
    thread ∈ s.threads ∧ thread.registers = some bank ∧ thread.frames = [frame, caller] ∧
    frame = ⟨0, bank.pc, bank.sp, bank.fp, .context⟩ ∧ s.Records frame caller ∧
    ((∀ other, ¬s.Records caller other) ∨
      ∃ other, s.Records caller other ∧ other.pc = Address.zero) := by
  obtain ⟨s, thread, bank, hs, hthread, hbank, hframes⟩ := load_called
  have hlimit : 1 ≤ LoadOptions.standard.maxFrames := by decide
  obtain ⟨hfirst, _, hchain, _, last, hlast, hend⟩ :=
    backtrace_exact hs hlimit hthread hbank
  rw [hframes] at hfirst hchain hlast hend
  obtain ⟨_, ⟨_, hrecord⟩ | ⟨hstatus, _⟩⟩ := hchain 0 _ _ rfl rfl
  · refine ⟨s, thread, bank, _, _, hs, hlimit, hthread, hbank, hframes, Option.some.inj hfirst,
      hrecord, ?_⟩
    obtain rfl := Option.some.inj hlast
    rcases hend with hlength | ⟨hno, _⟩ | hzero
    · exact absurd hlength (by decide)
    · exact .inl hno
    · exact .inr hzero
  · exact FrameStatus.noConfusion hstatus

end Snapshot
end CrashDump

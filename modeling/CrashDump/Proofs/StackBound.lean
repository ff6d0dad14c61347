import CrashDump.Proofs.Backtrace

/-!
# Bounds on stack walks

The stack pointer grows from record to record, so the records of a walk lie at different captured
addresses. A walk therefore ends by itself, and a limit only cuts off what would follow.
-/
namespace CrashDump

namespace Captured

variable {memory : Captured}

/-- How many bytes are held. -/
def byteCount (memory : Captured) : Nat := (memory.segments.map fun s => s.bytes.size).sum

theorem WellFormed.byteCount_eq (h : memory.WellFormed) :
    memory.byteCount = (memory.ranges.map Interval.length).sum := by
  have hsizes : (memory.segments.map fun s => s.bytes.size) =
      memory.segments.map fun s => s.range.length :=
    List.map_congr_left fun s hs => h.size_bytes hs
  rw [byteCount, hsizes, ← map_range_segments, List.map_map]
  rfl

/-- There are no more captured addresses than captured bytes. -/
theorem WellFormed.length_le_byteCount (h : memory.WellFormed) {addresses : List Address}
    (hn : addresses.Nodup) (hheld : ∀ a ∈ addresses, (memory.byteAt? a).isSome = true) :
    addresses.length ≤ memory.byteCount := by
  let held := memory.ranges.flatMap fun r => List.range' r.start.toNat r.length
  have hlength : held.length = memory.byteCount := by
    simp [held, h.byteCount_eq, List.length_flatMap]
  have hinjective : Function.Injective Address.toNat := fun _ _ => Address.ext_toNat
  have hsubset : addresses.map Address.toNat ⊆ held := by
    intro n hmem
    obtain ⟨a, ha, rfl⟩ := List.mem_map.1 hmem
    obtain ⟨r, hr, hc⟩ := h.byteAt?_isSome_iff.1 (hheld a ha)
    have hbounds := Interval.contains_iff.1 hc
    refine List.mem_flatMap.2 ⟨r, hr, List.mem_range'_1.2 ⟨hbounds.1, ?_⟩⟩
    rw [Interval.length]
    omega
  have hle := (hn.map hinjective).length_le_of_subset hsubset
  rwa [List.length_map, hlength] at hle

theorem WellFormed.isSome_of_word (h : memory.WellFormed) {width n : Nat} {a : Address}
    (hw : 0 < width) (hword : memory.word width a = .ok n) : (memory.byteAt? a).isSome = true := by
  have hsize : (memory.read a width).1.size = width := by
    by_contra hne
    simp [word, hne] at hword
  have hfirst := (h.reads a width).isSome_byteAfter? (i := 0) (by omega)
  rwa [byteAfter?_zero] at hfirst

end Captured

namespace StackWalk

variable {walk : StackWalk} {bank : RegisterBank} {limit m n : Nat} {frame caller : Frame}

/-- How far above the frame pointer a record puts the caller's stack pointer. -/
def reach (walk : StackWalk) : Nat :=
  match FrameRecord.of walk.architecture walk.platform with
  | .upward => 2 * walk.architecture.pointerSize
  | .downward => walk.architecture.pointerSize

/-- A record is read where the frame pointer points, and it leads upwards. -/
theorem recordedCaller?_climbs (h : walk.recordedCaller? frame = some caller) :
    (∃ value, walk.word? frame.fp = some value) ∧
      caller.sp.toNat = frame.fp.toNat + walk.reach ∧ frame.sp < caller.sp ∧
      caller.status = .framePointer := by
  unfold recordedCaller? at h
  cases hrecord : FrameRecord.of walk.architecture walk.platform with
  | upward =>
    simp only [hrecord, Option.bind_eq_bind, Option.bind_eq_some_iff, Option.pure_def,
      Option.ite_none_left_eq_some, Address.add?_eq_some_iff, Option.some.injEq,
      exists_eq_left'] at h
    obtain ⟨_, fp, hfp, saved, _, pc, _, sp, hsp, hgrows, rfl⟩ := h
    simp only [reach, hrecord]
    exact ⟨⟨fp, hfp⟩, hsp, Nat.lt_of_not_le hgrows, trivial⟩
  | downward =>
    simp only [hrecord, Option.bind_eq_bind, Option.bind_eq_some_iff, Option.pure_def,
      Option.ite_none_left_eq_some, Address.add?_eq_some_iff, Option.some.injEq,
      exists_eq_left'] at h
    obtain ⟨_, saved, _, fp, _, pc, hpc, sp, hsp, hgrows, rfl⟩ := h
    simp only [reach, hrecord]
    exact ⟨⟨pc, hpc⟩, hsp, Nat.lt_of_not_le hgrows, trivial⟩

/-- The link register is asked for the innermost frame only. -/
theorem recordedCaller?_of_caller? (hs : frame.status ≠ .context)
    (h : walk.caller? bank frame = some caller) : walk.recordedCaller? frame = some caller := by
  have hlinked : walk.linkedCaller? bank frame = none := by
    rw [linkedCaller?, if_pos (.inl hs)]
  rw [caller?, hlinked, Option.or_none, Option.filter_eq_some_iff] at h
  exact h.1

theorem status_ne_of_caller? (h : walk.caller? bank frame = some caller) :
    caller.status ≠ .context := by
  rw [caller?, Option.filter_eq_some_iff, Option.or_eq_some_iff] at h
  rcases h.1 with hrecorded | ⟨_, hlinked⟩
  · simp [(recordedCaller?_climbs hrecorded).2.2.2]
  · unfold linkedCaller? at hlinked
    split at hlinked
    · simp at hlinked
    · split at hlinked
      · simp at hlinked
      · rw [Option.ite_none_left_eq_some] at hlinked
        simp [← Option.some.inj hlinked.2]

/-- The frame pointers that a walk from an outer frame follows grow, and each can be read. -/
theorem pairwise_fp (walk : StackWalk) (bank : RegisterBank) (limit : Nat)
    (hs : frame.status ≠ .context) :
    ((walk.framesFrom bank limit frame).dropLast.map Frame.fp).Pairwise (· < ·) ∧
      ∀ a ∈ (walk.framesFrom bank limit frame).dropLast.map Frame.fp,
        (∃ value, walk.word? a = some value) ∧ frame.sp.toNat < a.toNat + walk.reach := by
  induction limit generalizing frame with
  | zero => simp [framesFrom]
  | succ limit ih =>
    cases hcaller : walk.caller? bank frame with
    | none => simp [framesFrom_of_none hcaller]
    | some caller =>
      obtain ⟨hread, hsp, hgrows, _⟩ :=
        recordedCaller?_climbs (recordedCaller?_of_caller? hs hcaller)
      obtain ⟨hpairwise, hplaces⟩ := ih (status_ne_of_caller? hcaller)
      rw [Address.lt_def] at hgrows
      rw [framesFrom_of_some hcaller]
      cases limit with
      | zero => simp [framesFrom]
      | succ limit =>
        obtain ⟨callers, hcallers⟩ : ∃ callers,
            walk.framesFrom bank (limit + 1) caller = caller :: callers :=
          exists_framesFrom limit.succ_pos
        rw [hcallers] at hpairwise hplaces ⊢
        rw [List.dropLast_cons_cons, List.map_cons]
        constructor
        · refine List.pairwise_cons.2 ⟨fun a ha => ?_, hpairwise⟩
          have hlt := (hplaces a ha).2
          exact Address.lt_def.2 (by omega)
        · intro a ha
          rcases List.mem_cons.1 ha with rfl | ha
          · exact ⟨hread, by omega⟩
          · obtain ⟨hvalue, hlt⟩ := hplaces a ha
            exact ⟨hvalue, by omega⟩

theorem length_framesFrom_le_byteCount (hm : walk.memory.WellFormed) (bank : RegisterBank)
    (limit : Nat) (hs : frame.status ≠ .context) :
    (walk.framesFrom bank limit frame).length ≤ walk.memory.byteCount + 1 := by
  obtain ⟨hpairwise, hplaces⟩ := pairwise_fp walk bank limit hs
  have hpointer : 0 < walk.architecture.pointerSize := by
    cases walk.architecture <;> decide
  have hnodup : ((walk.framesFrom bank limit frame).dropLast.map Frame.fp).Nodup := by
    refine hpairwise.imp fun hlt heq => ?_
    rw [heq, Address.lt_def] at hlt
    exact Nat.lt_irrefl _ hlt
  have hle := hm.length_le_byteCount hnodup fun a ha => by
    obtain ⟨⟨value, hvalue⟩, _⟩ := hplaces a ha
    obtain ⟨number, hword, _⟩ := exists_ok_of_map hvalue
    exact hm.isSome_of_word hpointer hword
  rw [List.length_map, List.length_dropLast] at hle
  omega

theorem framesFrom_take (h : m ≤ n) :
    walk.framesFrom bank m frame = (walk.framesFrom bank n frame).take m := by
  induction m generalizing n frame with
  | zero => simp [framesFrom]
  | succ m ih =>
    cases n with
    | zero => omega
    | succ n =>
      cases hcaller : walk.caller? bank frame with
      | none => simp [framesFrom_of_none hcaller]
      | some caller =>
        rw [framesFrom_of_some hcaller, framesFrom_of_some hcaller, List.take_succ_cons,
          ih (Nat.le_of_succ_le_succ h)]

/-- Every record costs a captured byte; the frame of the registers and one of the link register come
for free. -/
theorem length_frames_le (hm : walk.memory.WellFormed) (bank : RegisterBank) (limit : Nat) :
    (walk.frames bank limit).length ≤ walk.memory.byteCount + 2 := by
  unfold frames
  cases limit with
  | zero => simp [framesFrom]
  | succ limit =>
    cases hcaller : walk.caller? bank (innermost bank) with
    | none => simp [framesFrom_of_none hcaller]
    | some caller =>
      have hle := length_framesFrom_le_byteCount hm bank limit (status_ne_of_caller? hcaller)
      rw [framesFrom_of_some hcaller, List.length_cons]
      omega

/-- A lower limit cuts a walk off, and no limit makes it longer than captured memory allows. -/
theorem limit_truncates (walk : StackWalk) (bank : RegisterBank) :
    (∀ m n, m ≤ n → walk.frames bank m = (walk.frames bank n).take m) ∧
    (walk.memory.Reachable → ∀ n,
      (walk.frames bank n).length ≤ walk.memory.byteCount + 2 ∧
      (walk.memory.byteCount + 2 ≤ n →
        walk.frames bank n = walk.frames bank (walk.memory.byteCount + 2))) := by
  refine ⟨fun m n hmn => framesFrom_take hmn, fun hm n => ?_⟩
  have hlength := length_frames_le hm.wellFormed bank n
  refine ⟨hlength, fun hn => ?_⟩
  have htake : walk.frames bank (walk.memory.byteCount + 2) =
      (walk.frames bank n).take (walk.memory.byteCount + 2) := framesFrom_take hn
  rw [htake, List.take_of_length_le hlength]

/-- A frame record that is its own caller. -/
theorem limit_truncates_cycle :
    let record := LittleEndian.bytes 8 0x1000 ++ LittleEndian.bytes 8 0x8000
    let memory := Captured.empty.add ⟨⟨⟨0x1000⟩, ⟨0x1010⟩⟩, Buffer.ofBytes record⟩
    let walk : StackWalk := ⟨.amd64, .linux, memory⟩
    let context := List.replicate 160 0 ++ LittleEndian.bytes 8 0x1000 ++ List.replicate 1064 0
    let bank : RegisterBank := ⟨Amd64.systemV, Buffer.ofBytes context⟩
    memory.byteCount = 16 ∧ (walk.frames bank 2).length = 2 ∧
      walk.frames bank 1 = (walk.frames bank 2).take 1 ∧
      walk.frames bank 1000000 = walk.frames bank 18 := by
  intro record memory walk context bank
  have hcount : walk.memory.byteCount = 16 := by decide +kernel
  have hmemory : memory.Reachable := .add .empty (by decide)
  obtain ⟨htake, hbound⟩ := limit_truncates walk bank
  have hfixed := (hbound hmemory 1000000).2
  rw [hcount] at hfixed
  exact ⟨hcount, by decide +kernel, htake 1 2 (by decide), hfixed (by decide)⟩

end StackWalk
end CrashDump

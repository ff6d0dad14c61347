import CrashDump.Proofs.CapturedLaws
import CrashDump.Proofs.ThreadContexts

/-!
# Loads that report nothing

What a load leaves out it reports, so a load without reports has everything that the dump lists. One
thing is left out in silence: a stack that wraps the address space.
-/
namespace CrashDump

theorem Container.nodup_tags {data : Buffer} {c : Container} (hc : parse data = .ok c)
    (h : c.duplicates = []) : (c.directory.map DirectoryEntry.tag).Nodup := by
  obtain ⟨_, rfl⟩ := parse_eq_ok_iff.1 hc
  have hdirectory : (read data).directory = _ := indexes_read.entries
  have hrepeats : DirectoryIndex.repeats (entryAt data) (streamCount data) = [] :=
    indexes_read.repeated.symm.trans h
  have hperm : ((List.range (streamCount data)).map (entryAt data)).Perm
      (DirectoryIndex.firsts (entryAt data) (streamCount data) ++
        DirectoryIndex.repeats (entryAt data) (streamCount data)) :=
    DirectoryIndex.perm_firsts_repeats
  rw [hrepeats, List.append_nil] at hperm
  rw [hdirectory]
  exact (hperm.map DirectoryEntry.tag).nodup_iff.2 DirectoryIndex.nodup_firsts

namespace Captured

variable {c : Container} {memory more all : Captured} {range : Interval}

/-- One segment holds all addresses of an interval. -/
def HoldsRange (memory : Captured) (range : Interval) : Prop :=
  ∃ s ∈ memory.segments, s.range.contains range.start = true ∧ range.stop ≤ s.range.stop

theorem HoldsRange.mono (h : memory.HoldsRange range) (hkept : memory.segments ⊆ more.segments) :
    more.HoldsRange range := by
  obtain ⟨s, hs, hheld⟩ := h
  exact ⟨s, hkept hs, hheld⟩

theorem WellFormed.holdsRange_of_covers (h : memory.WellFormed) (hc : memory.covers range = true) :
    memory.HoldsRange range := by
  obtain ⟨r, hr, hheld⟩ := h.covers_iff.1 hc
  rw [← map_range_segments] at hr
  obtain ⟨s, hs, rfl⟩ := List.mem_map.1 hr
  exact ⟨s, hs, hheld⟩

/-- A stack about which nothing is reported is held. -/
theorem holdsRange_of_withStack {record : ThreadRecord} (hm : memory.Reachable)
    (h : memory.withStack c record = .ok (more, [])) (hrange : record.stackRange? = some range) :
    more.HoldsRange range := by
  have hw := hm.wellFormed
  simp only [withStack, hrange] at h
  split at h
  · next hcovers =>
    obtain ⟨rfl, _⟩ := Prod.mk.inj (Except.ok.inj h)
    exact hw.holdsRange_of_covers hcovers
  · obtain ⟨bytes, hbytes, h⟩ := bind_eq_ok.1 h
    obtain ⟨hn, hlength⟩ := ThreadRecord.stackRange?_eq_some hrange
    have hsize := Buffer.size_of_slice? (Container.located_eq_ok_iff.1 hbytes)
    rw [← hlength] at hsize
    have hnew : (Segment.mk range bytes).range.isEmpty = false := hn
    rcases hw.insert?_cases hnew hsize with
      ⟨hnone, _⟩ | ⟨after, front, back, hsome, _, _, hview, _⟩
    · simp [hnone] at h
    · simp only [hsome] at h
      obtain ⟨rfl, _⟩ := Prod.mk.inj (Except.ok.inj h)
      refine ⟨⟨range, bytes⟩, by simp [hview], Interval.contains_start hn, ?_⟩
      exact Nat.le_refl _

theorem holdsRange_of_withStacks {records : List ThreadRecord} {record : ThreadRecord}
    (hm : memory.Reachable) (h : memory.withStacks c records = .ok (all, []))
    (hrecord : record ∈ records) (hrange : record.stackRange? = some range) :
    all.HoldsRange range := by
  induction records generalizing memory with
  | nil => simp at hrecord
  | cons first rest ih =>
    obtain ⟨⟨more, reports⟩, hfirst, h⟩ := bind_eq_ok.1 h
    obtain ⟨⟨whole, others⟩, hrest, h⟩ := bind_eq_ok.1 h
    obtain ⟨rfl, hreports⟩ := Prod.mk.inj (Except.ok.inj h)
    obtain ⟨rfl, rfl⟩ := List.append_eq_nil_iff.1 hreports
    have hreach := (extends_of_withStack hm hfirst).reachable
    cases List.mem_cons.1 hrecord with
    | inl heq =>
      subst heq
      have hkept := (extends_of_withStacks hreach hrest).kept
      exact (holdsRange_of_withStack hm hfirst hrange).mono hkept
    | inr hmem => exact ih hreach hrest hmem

/-- What one segment holds is read whole. -/
theorem WellFormed.size_read_of_holds (h : memory.WellFormed) (hheld : memory.HoldsRange range) :
    (memory.read range.start range.length).1.size = range.length := by
  have hreads := h.reads range.start range.length
  obtain ⟨s, hs, hstart, hstop⟩ := hheld
  by_contra hne
  have hlt := Nat.lt_of_le_of_ne hreads.size_le hne
  have hplace := Address.add?_eq_some_iff.1 hreads.stop_eq
  have hlength : range.length = range.stop.toNat - range.start.toNat := rfl
  rw [Interval.contains_iff] at hstart
  rw [Address.le_def] at hstop
  have hin : s.range.contains (memory.read range.start range.length).2 = true :=
    Interval.contains_iff.2 (by omega)
  have hsome := h.byteAt?_isSome_iff.2 ⟨s.range, map_range_segments memory ▸
    List.mem_map_of_mem hs, hin⟩
  rw [hreads.maximal hlt] at hsome
  exact Bool.noConfusion hsome

end Captured

namespace Snapshot

variable {data : Buffer} {options : LoadOptions} {disk : Disk} {s : Snapshot} {steps : Steps}
  {record : ThreadRecord}

theorem isFull_read_iff {a : Address} {length : Nat} :
    (s.read a length).isFull = true ↔ (s.memory.read a length).1.size = length := by
  constructor
  · intro hfull
    cases hread : s.read a length with
    | full bytes =>
      obtain ⟨rfl, hsize⟩ := read_eq_full_iff.1 hread
      exact hsize
    | broken bytes stop => simp [hread, MemoryRead.isFull] at hfull
    | notCaptured => simp [hread, MemoryRead.isFull] at hfull
    | unmapped => simp [hread, MemoryRead.isFull] at hfull
  · intro hsize
    rw [read_eq_full_iff.2 ⟨rfl, hsize⟩]
    rfl

namespace Steps.Lead

variable (lead : steps.Lead data options disk s)
include lead

/-- A read that goes beyond the highest address is not full. -/
theorem lt_of_isFull {a : Address} {length : Nat} (h : (s.read a length).isFull = true) :
    a.toNat + length < 2 ^ 64 := by
  have hstop := Address.add?_eq_some_iff.1 (lead.wellFormed.reads a length).stop_eq
  rw [isFull_read_iff.1 h] at hstop
  exact hstop ▸ Address.toNat_lt _

/-- Without reports on stacks, those that do not wrap are read whole. -/
theorem isFull_stack_iff (hnone : steps.stackReports = []) (hrecord : record ∈ steps.threadRecords)
    (hsize : record.stack.location.size ≠ 0) :
    (s.read ⟨record.stack.start⟩ record.stack.location.size.toNat).isFull = true ↔
      record.stack.start.toNat + record.stack.location.size.toNat < 2 ^ 64 := by
  constructor
  · exact lead.lt_of_isFull
  · intro hlt
    cases hrange : record.stackRange? with
    | none =>
      rcases ThreadRecord.stackRange?_eq_none_iff.1 hrange with hzero | hwraps
      · exact absurd hzero hsize
      · exact absurd hlt (Nat.not_lt.2 hwraps)
    | some range =>
      obtain ⟨_, hstart, _⟩ := ThreadRecord.stackRange?_eq_some_iff.1 hrange
      have hlength := (ThreadRecord.stackRange?_eq_some hrange).2
      have hmemory := lead.memory
      rw [hnone] at hmemory
      have hheld := Captured.holdsRange_of_withStacks (.build lead.captured) hmemory hrecord hrange
      have hread := lead.wellFormed.size_read_of_holds hheld
      rw [hstart, hlength] at hread
      exact isFull_read_iff.2 hread

theorem isSome_registers (hnone : steps.threads.flatMap Prod.snd = []) {thread : Thread}
    (hthread : thread ∈ s.threads) : thread.registers.isSome = true := by
  have hreports := lead.withoutContext_threads
  rw [hnone, List.filterMap_nil, eq_comm, List.map_eq_nil_iff, List.filter_eq_nil_iff] at hreports
  exact Option.isSome_iff_ne_none.2 fun h => hreports thread hthread (by simp [h])

theorem exists_thread_of_record (hrecord : record ∈ steps.threadRecords) :
    ∃ thread ∈ s.threads, thread.id = record.id := by
  obtain ⟨i, hi⟩ := List.getElem?_of_mem hrecord
  have hlt : i < s.threads.length := by
    rw [lead.length_threads]
    exact (List.getElem?_eq_some_iff.1 hi).1
  have hthread := List.getElem?_eq_getElem hlt
  exact ⟨_, List.mem_of_getElem? hthread, (lead.describes hi hthread).own.1⟩

end Steps.Lead

/-- A load that reports nothing has kept all that the dump lists, apart from the stacks that wrap
the address space. -/
theorem load_lossless (h : load data options disk = .ok s) (hnone : s.diagnostics = []) :
    ∃ c records moduleRecords threadRecords exception, Container.parse data = .ok c ∧
      c.memoryRecords = .ok records ∧ c.modules = .ok moduleRecords ∧
      c.threads = .ok threadRecords ∧ c.exception = .ok exception ∧
      (c.directory.map DirectoryEntry.tag).Nodup ∧
      (∃ resolved, moduleRecords.mapM (Module.ofRecord c disk options.imagePaths) = .ok resolved ∧
        s.modules.modules.Perm (resolved.map Prod.fst)) ∧
      (∀ r ∈ records, r.range.isEmpty = false →
        ∃ bytes, data.slice? r.dataOffset r.range.length = some bytes ∧
          s.read r.range.start r.range.length = .full bytes) ∧
      (∀ thread ∈ s.threads, thread.registers.isSome = true) ∧
      (∀ stream, exception = some stream → ∃ thread ∈ s.threads, thread.id = stream.threadId) ∧
      ∀ record ∈ threadRecords, record.stack.location.size ≠ 0 →
        ((s.read ⟨record.stack.start⟩ record.stack.location.size.toNat).isFull = true ↔
          record.stack.start.toNat + record.stack.location.size.toNat < 2 ^ 64) := by
  obtain ⟨steps, lead⟩ := exists_steps h
  rw [lead.rest.2.2.2, Steps.diagnostics] at hnone
  simp only [List.append_eq_nil_iff] at hnone
  obtain ⟨⟨⟨⟨⟨⟨hduplicate, _⟩, hmodules⟩, _⟩, hstacks⟩, hstray⟩, hthreads⟩ := hnone
  obtain ⟨moduleRecords, resolved, repeats, hmoduleRecords, hresolved, hreports, _, hperm⟩ :=
    ModuleList.ofContainer_eq_ok lead.modules
  rw [hmodules, eq_comm, List.append_eq_nil_iff] at hreports
  refine ⟨steps.container, steps.records, moduleRecords, steps.threadRecords, steps.exception,
    lead.container, lead.records, hmoduleRecords, lead.threadRecords, lead.exception,
    Container.nodup_tags lead.container (List.map_eq_nil_iff.1 hduplicate),
    ⟨resolved, hresolved, hperm hreports.2⟩, fun r => lead.read_record,
    fun thread => lead.isSome_registers hthreads, fun stream hstream => ?_,
    fun record => lead.isFull_stack_iff hstacks⟩
  obtain ⟨record, hrecord, hid⟩ := strayReports_eq_nil_iff.1 hstray stream hstream
  obtain ⟨thread, hthread, hown⟩ := lead.exists_thread_of_record hrecord
  exact ⟨thread, hthread, hown.trans hid⟩

/-- A dump of a thread on 32-bit ARM, with a context and with a stack that wraps. -/
def wrapped : Buffer :=
  let header : Header := ⟨Container.signature, 0, 4, 32, 0, 0, 0⟩
  let directory : List DirectoryEntry := [⟨StreamKind.systemInfo.tag, 56, 80⟩,
    ⟨StreamKind.threadList.tag, 52, 136⟩, ⟨StreamKind.moduleList.tag, 4, 188⟩,
    ⟨StreamKind.memoryList.tag, 20, 192⟩]
  let system : SystemInfo := ⟨5, 0, 0, 1, 0, 0, 0, 0, 0x8201, 0, 0, 0, Vector.replicate 24 0⟩
  let thread : ThreadRecord := ⟨1, 0, 0, 0, 0, ⟨0xfffffffffffffff8, 16, 212⟩, ⟨368, 216⟩⟩
  let memory : MemoryDescriptor := ⟨0x1000, 4, 212⟩
  Buffer.ofBytes (Record.write header ++ directory.flatMap Record.write ++ Record.write system ++
    Record.write (1 : UInt32) ++ Record.write thread ++ Record.write (0 : UInt32) ++
    Record.write (1 : UInt32) ++ Record.write memory ++ [1, 2, 3, 4] ++ List.replicate 368 0)

theorem complete_wrapped : Container.Complete wrapped := by
  have hcount : Container.streamCount wrapped = 4 := by decide +kernel
  refine ⟨by decide +kernel, by decide +kernel, by decide +kernel, ?_⟩
  rw [hcount]
  decide +kernel

/-- The dump is read without a report, one step after another. -/
theorem load_wrapped : ∃ s, load wrapped ⟨[], 0⟩ noFiles = .ok s ∧ s.diagnostics = [] ∧
    (Container.read wrapped).memoryRecords = .ok [⟨⟨⟨0x1000⟩, ⟨0x1004⟩⟩, 212⟩] ∧
    (Container.read wrapped).threads =
      .ok [⟨1, 0, 0, 0, 0, ⟨0xfffffffffffffff8, 16, 212⟩, ⟨368, 216⟩⟩] := by
  let c := Container.read wrapped
  let range : Interval := ⟨⟨0x1000⟩, ⟨0x1004⟩⟩
  let memory : Captured := ⟨#[⟨range, 0⟩], Buffer.ofBytes [1, 2, 3, 4]⟩
  let record : ThreadRecord := ⟨1, 0, 0, 0, 0, ⟨0xfffffffffffffff8, 16, 212⟩, ⟨368, 216⟩⟩
  let regions : RegionMap := ⟨.captured, [⟨range, ⟨true, false, false⟩, none⟩]⟩
  obtain ⟨system, hsystem, hfields⟩ : ∃ system, systemInfoOf c = .ok system ∧
      (system.processor, system.platform) = (5, 0x8201) :=
    exists_ok_of_map (by decide +kernel)
  obtain ⟨hprocessor, hplatform⟩ := Prod.mk.inj hfields
  have hmodules : ModuleList.ofContainer c .linux noFiles [] = .ok (⟨[]⟩, []) := by decide +kernel
  have hrecords : c.memoryRecords = .ok [⟨range, 212⟩] := by decide +kernel
  have hcaptured : Captured.build [⟨range, 212⟩] wrapped = .ok (memory, []) := by decide +kernel
  have hthreads : c.threads = .ok [record] := by decide +kernel
  have hmemory : memory.withStacks c [record] = .ok (memory, []) := by rfl
  have hexception : c.exception = .ok none := by decide +kernel
  have hslice : c.data.slice? 216 368 = some _ :=
    Buffer.slice?_eq_some_iff.2 ⟨show 216 + 368 ≤ wrapped.size by decide +kernel, rfl⟩
  have hregisters : Thread.registersAt c 5 .linux 1 ⟨368, 216⟩ =
      .ok (some ⟨Arm.standard, _⟩, []) :=
    Thread.registersAt_of_slice (by decide) hslice rfl
      (Nat.le_of_eq (Buffer.size_of_slice? hslice).symm)
  obtain ⟨thread, hthread⟩ : ∃ thread,
      Thread.ofRecord c 5 ⟨.arm, .linux, memory⟩ 0 none record = .ok (thread, []) :=
    ⟨_, bind_eq_ok.2 ⟨_, hregisters, rfl⟩⟩
  have hregions : regionsOf c memory ⟨[]⟩ = .ok regions := by decide +kernel
  have hduplicate : duplicateReports c = [] := by decide +kernel
  have hmissing : missingReports c = [] := by decide +kernel
  let s : Snapshot :=
    ⟨processIdOf c, .arm, .linux, c.writtenAt?, [thread], ⟨[]⟩, regions, memory, []⟩
  have lead : Steps.Lead ⟨c, system, [], [⟨range, 212⟩], memory, [], [record], [], none,
      [(thread, [])]⟩ wrapped ⟨[], 0⟩ noFiles s := by
    refine ⟨Container.parse_eq_ok_iff.2 ⟨complete_wrapped, rfl⟩, hsystem, ?_, ?_, hmodules,
      hrecords, hcaptured, hthreads, hmemory, hexception, ?_, hregions, rfl, rfl, rfl, ?_⟩
    · rw [hprocessor]
      rfl
    · rw [hplatform]
      rfl
    · change [record].mapM (Thread.ofRecord c system.processor ⟨.arm, .linux, memory⟩ 0 none) = _
      rw [hprocessor, List.mapM_cons, hthread]
      rfl
    · rw [Steps.diagnostics, hduplicate, hmissing]
      rfl
  exact ⟨s, lead.load_eq, rfl, hrecords, hthreads⟩

theorem load_lossless_wrapped : ∃ s, load wrapped ⟨[], 0⟩ noFiles = .ok s ∧ s.diagnostics = [] ∧
    ((Container.read wrapped).directory.map DirectoryEntry.tag).Nodup ∧
    (∃ bytes, wrapped.slice? 212 4 = some bytes ∧ s.read ⟨0x1000⟩ 4 = .full bytes) ∧
    (∀ thread ∈ s.threads, thread.registers.isSome = true) ∧
    (s.read ⟨0xfffffffffffffff8⟩ 16).isFull = false := by
  obtain ⟨s, hs, hnone, hrecords, hthreads⟩ := load_wrapped
  have hparse := Container.parse_eq_ok_iff.2 ⟨complete_wrapped, rfl⟩
  obtain ⟨c, records, _, threadRecords, _, hc, hrecords', _, hthreads', _, htags, _, hread, hbanks,
    _, hstacks⟩ := load_lossless hs hnone
  obtain rfl : Container.read wrapped = c := Except.ok.inj (hparse.symm.trans hc)
  obtain rfl := Except.ok.inj (hrecords.symm.trans hrecords')
  obtain rfl := Except.ok.inj (hthreads.symm.trans hthreads')
  refine ⟨s, hs, hnone, htags, ?_, hbanks, ?_⟩
  · exact hread ⟨⟨⟨0x1000⟩, ⟨0x1004⟩⟩, 212⟩ (List.mem_singleton_self _) (by decide)
  · have hstack := hstacks _ (List.mem_singleton_self _) (by decide)
    exact Bool.eq_false_iff.2 fun hfull => absurd (hstack.1 hfull) (by decide)

/-- The stack of a thread is left out and nothing says so. -/
theorem exists_silent_loss : ∃ s c records record, load wrapped ⟨[], 0⟩ noFiles = .ok s ∧
    s.diagnostics = [] ∧ Container.parse wrapped = .ok c ∧ c.threads = .ok records ∧
    record ∈ records ∧ record.stack.location.size ≠ 0 ∧
    (s.read ⟨record.stack.start⟩ record.stack.location.size.toNat).isFull = false := by
  obtain ⟨s, hs, hnone, _, hthreads⟩ := load_wrapped
  obtain ⟨steps, lead⟩ := exists_steps hs
  refine ⟨s, _, _, _, hs, hnone, Container.parse_eq_ok_iff.2 ⟨complete_wrapped, rfl⟩, hthreads,
    List.mem_singleton_self _, by decide, ?_⟩
  exact Bool.eq_false_iff.2 fun hfull => absurd (lead.lt_of_isFull hfull) (by decide)

end Snapshot
end CrashDump

import CrashDump.Proofs.CapturedBuild
import CrashDump.Proofs.DirectoryScan
import CrashDump.Snapshot.Load

/-!
# What a load does

A snapshot comes out of a fixed sequence of steps, each with a result of its own. Of these the
captured memory is traced here: the stacks of threads are added to what the records of the dump
describe, and nothing is lost on the way.
-/
namespace CrashDump

theorem ThreadRecord.stackRange?_eq_some {record : ThreadRecord} {range : Interval}
    (h : record.stackRange? = some range) :
    range.isEmpty = false ∧ range.length = record.stack.location.size.toNat := by
  unfold stackRange? at h
  split at h
  · simp at h
  · next hsize =>
    obtain ⟨hstart, hstop⟩ := Interval.ofLength?_eq_some_iff.1 h
    have hpos : record.stack.location.size.toNat ≠ 0 := fun h0 => hsize (UInt32.toNat_inj.1 h0)
    rw [← hstart] at hstop
    rw [Interval.isEmpty_eq_false_iff, Interval.length]
    omega

namespace Captured

variable {c : Container} {memory more : Captured} {record : ThreadRecord}
  {records : List ThreadRecord} {reports : List Diagnostic}

/-- The segment of a thread stack, with its bytes taken from the dump. -/
def IsStack (c : Container) (record : ThreadRecord) (s : Segment) : Prop :=
  record.stackRange? = some s.range ∧ c.located record.stack.location = .ok s.bytes

/-- What the stacks of threads can do to captured memory. -/
structure Extends (c : Container) (memory : Captured) (records : List ThreadRecord)
    (more : Captured) : Prop where
  reachable : more.Reachable
  kept : memory.segments ⊆ more.segments
  added : ∀ s ∈ more.segments, s ∈ memory.segments ∨ ∃ record ∈ records, IsStack c record s

theorem Extends.refl (hm : memory.Reachable) (records : List ThreadRecord) :
    Extends c memory records memory := ⟨hm, List.Subset.refl _, fun _ hs => .inl hs⟩

theorem Extends.trans {all : Captured} (h : Extends c memory [record] more)
    (h' : Extends c more records all) : Extends c memory (record :: records) all := by
  refine ⟨h'.reachable, List.Subset.trans h.kept h'.kept, fun s hs => ?_⟩
  rcases h'.added s hs with hs | ⟨other, hother, hs⟩
  · rcases h.added s hs with hs | ⟨other, hother, hs⟩
    · exact .inl hs
    · obtain rfl : other = record := by simpa using hother
      exact .inr ⟨other, by simp, hs⟩
  · exact .inr ⟨other, by simp [hother], hs⟩

theorem extends_of_withStack (hm : memory.Reachable)
    (h : memory.withStack c record = .ok (more, reports)) : Extends c memory [record] more := by
  unfold withStack at h
  split at h
  · obtain ⟨rfl, _⟩ : memory = more ∧ _ := by simpa using h
    exact Extends.refl hm _
  · next range hrange =>
    split at h
    · obtain ⟨rfl, _⟩ : memory = more ∧ _ := by simpa using h
      exact Extends.refl hm _
    · obtain ⟨bytes, hbytes, h⟩ := bind_eq_ok.1 h
      obtain ⟨hn, hlength⟩ := ThreadRecord.stackRange?_eq_some hrange
      have hsize := Buffer.size_of_slice? (Container.located_eq_ok_iff.1 hbytes)
      rw [← hlength] at hsize
      split at h
      · next more' hmore =>
        obtain ⟨rfl, _⟩ : more' = more ∧ _ := by simpa using h
        have hn' : (Segment.mk range bytes).range.isEmpty = false := hn
        have hreach : (memory.add ⟨range, bytes⟩).Reachable := .add hm hsize
        rw [add_of_some hmore] at hreach
        rcases hm.wellFormed.insert?_cases hn' hsize with
          ⟨hnone, _⟩ | ⟨after, front, back, hsome, _, hv, hv', _⟩
        · simp [hnone] at hmore
        obtain rfl : after = more' := by simpa [hsome] using hmore
        refine ⟨hreach, ?_, ?_⟩
        · intro s hs
          rw [hv, List.mem_append] at hs
          rw [hv', List.mem_append, List.mem_cons]
          exact hs.imp_right .inr
        · intro s hs
          rw [hv', List.mem_append, List.mem_cons] at hs
          rw [hv, List.mem_append]
          rcases hs with hs | rfl | hs
          · exact .inl (.inl hs)
          · exact .inr ⟨record, by simp, hrange, hbytes⟩
          · exact .inl (.inr hs)
      · obtain ⟨rfl, _⟩ : memory = more ∧ _ := by simpa using h
        exact Extends.refl hm _

theorem extends_of_withStacks (hm : memory.Reachable)
    (h : memory.withStacks c records = .ok (more, reports)) : Extends c memory records more := by
  induction records generalizing memory reports with
  | nil =>
    obtain ⟨rfl, _⟩ : memory = more ∧ _ := by simpa [withStacks] using h
    exact Extends.refl hm _
  | cons record rest ih =>
    obtain ⟨⟨next, found⟩, hnext, h⟩ := bind_eq_ok.1 h
    obtain ⟨⟨all, others⟩, hall, h⟩ := bind_eq_ok.1 h
    obtain ⟨rfl, _⟩ : all = more ∧ _ := by simpa using h
    have hfirst := extends_of_withStack hm hnext
    exact hfirst.trans (ih hfirst.reachable hall)

end Captured

namespace Snapshot

/-- The results of the steps of a load that the snapshot does not have itself. -/
structure Steps where
  container : Container
  system : SystemInfo
  moduleReports : List Diagnostic
  records : List MemoryRecord
  captured : Captured
  memoryReports : List Diagnostic
  threadRecords : List ThreadRecord
  stackReports : List Diagnostic
  exception : Option ExceptionStream
  threads : List (Thread × List Diagnostic)

def Steps.diagnostics (steps : Steps) : List Diagnostic :=
  duplicateReports steps.container ++ missingReports steps.container ++
    steps.moduleReports ++ steps.memoryReports ++ steps.stackReports ++
    strayReports steps.exception steps.threadRecords ++ steps.threads.flatMap Prod.snd

/-- The steps before the region map lead from a dump to what a load gathers of it. -/
structure Steps.Gather (steps : Steps) (data : Buffer) (options : LoadOptions) (disk : Disk)
    (gathered : Gathered) : Prop where
  container : Container.parse data = .ok steps.container
  system : systemInfoOf steps.container = .ok steps.system
  architecture : architectureOf steps.system.processor = .ok gathered.architecture
  modules : ModuleList.ofContainer steps.container gathered.platform disk options.imagePaths =
    .ok (gathered.modules, steps.moduleReports)
  records : steps.container.memoryRecords = .ok steps.records
  captured : Captured.build steps.records data = .ok (steps.captured, steps.memoryReports)
  threadRecords : steps.container.threads = .ok steps.threadRecords
  memory : steps.captured.withStacks steps.container steps.threadRecords =
    .ok (gathered.memory, steps.stackReports)
  exception : steps.container.exception = .ok steps.exception
  threads : steps.threadRecords.mapM (Thread.ofRecord steps.container steps.system.processor
    ⟨gathered.architecture, gathered.platform, gathered.memory⟩ options.maxFrames
    steps.exception) = .ok steps.threads
  rest : gathered.container = steps.container ∧
    gathered.processId = processIdOf steps.container ∧
    gathered.platform = Platform.ofId steps.system.platform ∧
    gathered.threads = steps.threads.map Prod.fst ∧ gathered.diagnostics = steps.diagnostics

/-- The steps lead from a dump to a snapshot. -/
structure Steps.Lead (steps : Steps) (data : Buffer) (options : LoadOptions) (disk : Disk)
    (s : Snapshot) : Prop where
  container : Container.parse data = .ok steps.container
  system : systemInfoOf steps.container = .ok steps.system
  architecture : architectureOf steps.system.processor = .ok s.architecture
  platform : s.platform = Platform.ofId steps.system.platform
  modules : ModuleList.ofContainer steps.container s.platform disk options.imagePaths =
    .ok (s.modules, steps.moduleReports)
  records : steps.container.memoryRecords = .ok steps.records
  captured : Captured.build steps.records data = .ok (steps.captured, steps.memoryReports)
  threadRecords : steps.container.threads = .ok steps.threadRecords
  memory : steps.captured.withStacks steps.container steps.threadRecords =
    .ok (s.memory, steps.stackReports)
  exception : steps.container.exception = .ok steps.exception
  threads : steps.threadRecords.mapM (Thread.ofRecord steps.container steps.system.processor
    ⟨s.architecture, s.platform, s.memory⟩ options.maxFrames steps.exception) = .ok steps.threads
  regions : regionsOf steps.container s.memory s.modules = .ok s.regions
  rest : s.processId = processIdOf steps.container ∧ s.writtenAt = steps.container.writtenAt? ∧
    s.threads = steps.threads.map Prod.fst ∧ s.diagnostics = steps.diagnostics

variable {data : Buffer} {options : LoadOptions} {disk : Disk} {s : Snapshot}
  {gathered : Gathered}

theorem gather_eq_ok_iff : gather data options disk = .ok gathered ↔
    ∃ steps : Steps, steps.Gather data options disk gathered := by
  constructor
  · intro h
    obtain ⟨c, hc, h⟩ := bind_eq_ok.1 h
    obtain ⟨system, hsystem, h⟩ := bind_eq_ok.1 h
    obtain ⟨architecture, harchitecture, h⟩ := bind_eq_ok.1 h
    obtain ⟨⟨modules, moduleReports⟩, hmodules, h⟩ := bind_eq_ok.1 h
    obtain ⟨records, hrecords, h⟩ := bind_eq_ok.1 h
    obtain ⟨⟨captured, memoryReports⟩, hcaptured, h⟩ := bind_eq_ok.1 h
    obtain ⟨threadRecords, hthreadRecords, h⟩ := bind_eq_ok.1 h
    obtain ⟨⟨memory, stackReports⟩, hmemory, h⟩ := bind_eq_ok.1 h
    obtain ⟨exception, hexception, h⟩ := bind_eq_ok.1 h
    obtain ⟨threads, hthreads, h⟩ := bind_eq_ok.1 h
    obtain rfl := Except.ok.inj h
    rw [Malformed.lift_eq_ok] at hc hsystem hmodules hrecords hthreadRecords hmemory hexception
    exact ⟨⟨c, system, moduleReports, records, captured, memoryReports, threadRecords,
      stackReports, exception, threads⟩, hc, hsystem, harchitecture, hmodules, hrecords, hcaptured,
      hthreadRecords, hmemory, hexception, hthreads, rfl, rfl, rfl, rfl, rfl⟩
  · rintro ⟨steps, h⟩
    obtain ⟨hcontainer, hprocess, hplatform, hfound, hdiagnostics⟩ := h.rest
    have hmodules := h.modules
    have hthreads := h.threads
    cases gathered
    simp only at hcontainer hprocess hplatform hfound hdiagnostics
    subst hcontainer hprocess hplatform hfound hdiagnostics
    refine bind_eq_ok.2 ⟨_, Malformed.lift_eq_ok.2 h.container, ?_⟩
    refine bind_eq_ok.2 ⟨_, Malformed.lift_eq_ok.2 h.system, ?_⟩
    refine bind_eq_ok.2 ⟨_, h.architecture, ?_⟩
    refine bind_eq_ok.2 ⟨_, Malformed.lift_eq_ok.2 hmodules, ?_⟩
    refine bind_eq_ok.2 ⟨_, Malformed.lift_eq_ok.2 h.records, ?_⟩
    refine bind_eq_ok.2 ⟨_, h.captured, ?_⟩
    refine bind_eq_ok.2 ⟨_, Malformed.lift_eq_ok.2 h.threadRecords, ?_⟩
    refine bind_eq_ok.2 ⟨_, Malformed.lift_eq_ok.2 h.memory, ?_⟩
    refine bind_eq_ok.2 ⟨_, Malformed.lift_eq_ok.2 h.exception, ?_⟩
    exact bind_eq_ok.2 ⟨_, hthreads, rfl⟩

/-- The memory that is gathered comes out of records and stacks. -/
theorem Steps.Gather.extended {steps : Steps} (h : steps.Gather data options disk gathered) :
    Captured.Extends steps.container steps.captured steps.threadRecords gathered.memory :=
  Captured.extends_of_withStacks (.build h.captured) h.memory

theorem exists_steps (h : load data options disk = .ok s) :
    ∃ steps : Steps, steps.Lead data options disk s := by
  obtain ⟨gathered, hgathered, h⟩ := bind_eq_ok.1 h
  obtain ⟨regions, hregions, h⟩ := bind_eq_ok.1 h
  obtain rfl := Except.ok.inj h
  obtain ⟨steps, hsteps⟩ := gather_eq_ok_iff.1 hgathered
  obtain ⟨hcontainer, hprocess, hplatform, hthreads, hdiagnostics⟩ := hsteps.rest
  rw [hcontainer] at hregions
  exact ⟨steps, hsteps.container, hsteps.system, hsteps.architecture, hplatform, hsteps.modules,
    hsteps.records, hsteps.captured, hsteps.threadRecords, hsteps.memory, hsteps.exception,
    hsteps.threads, hregions, hprocess, congrArg Container.writtenAt? hcontainer, hthreads,
    hdiagnostics⟩

/-- What the steps to a snapshot gather on the way. -/
theorem Steps.Lead.gather {steps : Steps} (lead : steps.Lead data options disk s) :
    steps.Gather data options disk ⟨steps.container, s.processId, s.architecture, s.platform,
      s.threads, s.modules, s.memory, s.diagnostics⟩ := by
  obtain ⟨hprocess, _, hthreads, hdiagnostics⟩ := lead.rest
  exact ⟨lead.container, lead.system, lead.architecture, lead.modules, lead.records, lead.captured,
    lead.threadRecords, lead.memory, lead.exception, lead.threads, rfl, hprocess, lead.platform,
    hthreads, hdiagnostics⟩

/-- Steps that lead to a snapshot are the load of it. -/
theorem Steps.Lead.load_eq {steps : Steps} (lead : steps.Lead data options disk s) :
    load data options disk = .ok s := by
  obtain ⟨_, hwritten, _⟩ := lead.rest
  refine bind_eq_ok.2 ⟨_, gather_eq_ok_iff.2 ⟨steps, lead.gather⟩, ?_⟩
  refine bind_eq_ok.2 ⟨_, lead.regions, ?_⟩
  rw [Gathered.snapshot, ← hwritten]

end Snapshot
end CrashDump

import CrashDump.Proofs.RecordOrder
import CrashDump.Proofs.ThreadContexts

/-!
# How a load can fail

A load fails on a malformed dump, on a processor that it has no registers for, and on memory or
regions that overlap. What is wrong with an image or with the context of a thread does not end it.
-/
namespace CrashDump

namespace Interval

/-- Two intervals in their order that share an address. -/
def Clash (first second : Interval) : Prop :=
  first.precedes second = true ∧ ∃ a, first.contains a = true ∧ second.contains a = true

theorem clash_of_lt {first second : Interval} (hp : first.precedes second = true)
    (hn : second.isEmpty = false) (hlt : second.start < first.stop) : Clash first second := by
  have hstart := start_le_of_precedes hp
  rw [Address.le_def] at hstart
  rw [Address.lt_def] at hlt
  exact ⟨hp, second.start, contains_iff.2 ⟨hstart, hlt⟩, contains_start hn⟩

end Interval

/-- What a load fails with if it gets as far as the memory of the process. -/
def SnapshotFault.OfMemory (fault : SnapshotFault) : Prop :=
  (∃ malformed, fault = .malformed malformed) ∨
    ∃ first second, fault = .corruptMemoryMap first second ∧ first.Clash second

namespace Captured

variable {dump : Buffer} {fault : SnapshotFault}

theorem ofMemory_of_build {records : List MemoryRecord} (h : build records dump = .error fault) :
    fault.OfMemory := by
  rcases build_eq_error h with ⟨r, _, _, hmissing⟩ | ⟨first, second, rfl, hfirst⟩
  · unfold segmentOf at hmissing
    split at hmissing
    · simp at hmissing
    · exact .inl ⟨_, (Except.error.inj hmissing).symm⟩
  · obtain ⟨r, _, q, _, hcontra, rfl, rfl⟩ := hfirst.named
    exact .inr ⟨_, _, rfl, hfirst.ordered, hcontra.shared⟩

end Captured

namespace RegionMap

variable {mappings : List Mapping} {first second : Interval} {fault : SnapshotFault}

/-- Neighbours that overlap in sorted mappings share an address. -/
theorem clash_of_firstOverlap? (hn : ∀ m ∈ mappings, m.range.isEmpty = false)
    (hs : mappings.Pairwise fun m n => m.range.precedes n.range = true)
    (h : firstOverlap? mappings = some (first, second)) : first.Clash second := by
  induction mappings with
  | nil => simp [firstOverlap?] at h
  | cons m rest ih =>
    cases rest with
    | nil => simp [firstOverlap?] at h
    | cons n rest =>
      obtain ⟨hfirst, hs⟩ := List.pairwise_cons.1 hs
      unfold firstOverlap? at h
      split at h
      · next hlt =>
        obtain ⟨rfl, rfl⟩ := Prod.mk.inj (Option.some.inj h)
        exact Interval.clash_of_lt (hfirst n List.mem_cons_self) (hn n (by simp)) hlt
      · exact ih (fun o ho => hn o (List.mem_cons_of_mem m ho)) hs h

theorem ofMemory_of_sorted (hn : ∀ m ∈ mappings, m.range.isEmpty = false)
    (h : sorted mappings = .error fault) : fault.OfMemory := by
  simp only [sorted] at h
  split at h
  · next first second hover =>
    refine .inr ⟨first, second, (Except.error.inj h).symm, clash_of_firstOverlap? ?_ ?_ hover⟩
    · exact fun m hm => hn m ((List.mergeSort_perm _ _).mem_iff.1 hm)
    · exact Interval.pairwise_mergeSort Mapping.range mappings
  · simp at h

theorem ofMemory_of_build {maps : Option (List MapsEntry)} {info : Option (List MemoryInfo)}
    {captured : Captured} {modules : ModuleList} (hc : Interval.Separated captured.ranges)
    (h : build maps info captured modules = .error fault) : fault.OfMemory := by
  unfold build at h
  split at h
  · next source mappings hlisted =>
    rcases bind_eq_error.1 h with h | ⟨_, _, h⟩
    · exact ofMemory_of_sorted (isEmpty_of_listed? hlisted) h
    · simp at h
  · rw [sorted_of_separated (separated_shown hc)] at h
    simp [Except.map] at h

end RegionMap

/-- The registers of a thread are refused only for where they are in the dump. -/
theorem Thread.malformed_of_ofRecord {c : Container} {tag : UInt16} {walk : StackWalk}
    {limit : Nat} {exception : Option ExceptionStream} {record : ThreadRecord}
    {architecture : Architecture} {fault : SnapshotFault}
    (htag : Architecture.ofTag? tag = some architecture)
    (h : ofRecord c tag walk limit exception record = .error fault) :
    ∃ malformed, fault = .malformed malformed := by
  rcases bind_eq_error.1 h with h | ⟨_, _, h⟩
  · unfold registersAt at h
    split at h
    · simp at h
    · rcases bind_eq_error.1 h with h | ⟨context, _, h⟩
      · exact Malformed.eq_of_lift_eq_error h
      · obtain ⟨layout, hlayout⟩ := RegisterLayout.exists_select htag walk.platform context
        split at h
        · simp at h
        · simp at h
        · next other hbank hne =>
          unfold RegisterBank.ofContext at hne
          rcases bind_eq_error.1 hne with hselect | ⟨found, _, hshort⟩
          · simp [hlayout] at hselect
          · split at hshort
            · exact absurd (Except.error.inj hshort).symm (hbank _)
            · simp at hshort
  · simp at h

namespace Container

variable {data : Buffer} {c : Container} {system : SystemInfo}

/-- The processor tag in the system information of a dump: the first two bytes of the first stream
of that kind. -/
def HasProcessor (data : Buffer) (tag : UInt16) : Prop :=
  ∃ i < streamCount data, (entryAt data i).tag = StreamKind.systemInfo.tag ∧
    (∀ j < i, (entryAt data j).tag ≠ StreamKind.systemInfo.tag) ∧
    tag = UInt16.ofNat (Reader.number 2 (streamBytes data (entryAt data i)))

theorem hasProcessor_of_systemInfo (hc : parse data = .ok c)
    (h : c.systemInfo = .ok (some system)) : HasProcessor data system.processor := by
  obtain ⟨hcomplete, rfl⟩ := parse_eq_ok_iff.1 hc
  have hstream := hcomplete.stream?_read StreamKind.systemInfo.tag
  unfold systemInfo at h
  split at h
  · simp at h
  · next stream hfound =>
    obtain ⟨info, hinfo, hsome⟩ := map_eq_ok.1 h
    obtain rfl := Option.some.inj hsome
    obtain ⟨rest, hread⟩ := Buffer.exists_of_readAt (mapError_eq_ok.1 hinfo)
    have htag := Reader.processor_of_read hread
    rw [List.drop_zero, Reader.number_take (by decide)] at htag
    rw [hfound, Option.map_some, eq_comm, Option.map_eq_some_iff] at hstream
    obtain ⟨i, hnumber, hbytes⟩ := hstream
    obtain ⟨hi, hkind, hfirst⟩ := DirectoryIndex.numberOf?_eq_some_iff.1 hnumber
    exact ⟨i, hi, hkind, hfirst, by rw [hbytes, htag]⟩

end Container

namespace Snapshot

variable {data : Buffer} {options : LoadOptions} {disk : Disk} {fault : SnapshotFault}

theorem architectureOf_eq_error {tag : UInt16} (h : architectureOf tag = .error fault) :
    fault = .unsupportedArchitecture tag ∧ Architecture.ofTag? tag = none := by
  unfold architectureOf at h
  split at h
  · simp at h
  · next hnone => exact ⟨(Except.error.inj h).symm, hnone⟩

/-- Each step of a load fails in its own way. -/
theorem fault_cases (h : load data options disk = .error fault) : fault.OfMemory ∨
    ∃ tag, fault = .unsupportedArchitecture tag ∧ Architecture.ofTag? tag = none ∧
      Container.HasProcessor data tag := by
  have malformed : ∀ {α : Type} {x : Except Malformed α}, Malformed.lift x = .error fault →
      fault.OfMemory := fun h => .inl (Malformed.eq_of_lift_eq_error h)
  rcases bind_eq_error.1 h with h | ⟨gathered, hgathered, h⟩
  · rcases bind_eq_error.1 h with h | ⟨c, hc, h⟩
    · exact .inl (malformed h)
    rcases bind_eq_error.1 h with h | ⟨system, hsystem, h⟩
    · exact .inl (malformed h)
    rw [Malformed.lift_eq_ok] at hc hsystem
    rcases bind_eq_error.1 h with h | ⟨architecture, harchitecture, h⟩
    · obtain ⟨hfault, hnone⟩ := architectureOf_eq_error h
      exact .inr ⟨_, hfault, hnone,
        Container.hasProcessor_of_systemInfo hc (systemInfo_of_systemInfoOf hsystem)⟩
    refine .inl ?_
    rcases bind_eq_error.1 h with h | ⟨⟨modules, moduleReports⟩, _, h⟩
    · exact malformed h
    rcases bind_eq_error.1 h with h | ⟨records, _, h⟩
    · exact malformed h
    rcases bind_eq_error.1 h with h | ⟨⟨captured, memoryReports⟩, _, h⟩
    · exact Captured.ofMemory_of_build h
    rcases bind_eq_error.1 h with h | ⟨threadRecords, _, h⟩
    · exact malformed h
    rcases bind_eq_error.1 h with h | ⟨⟨memory, stackReports⟩, _, h⟩
    · exact malformed h
    rcases bind_eq_error.1 h with h | ⟨exception, _, h⟩
    · exact malformed h
    rcases bind_eq_error.1 h with h | ⟨threads, _, h⟩
    · obtain ⟨record, _, hrecord⟩ := exists_of_mapM_eq_error h
      exact .inl (Thread.malformed_of_ofRecord (ofTag?_of_architectureOf harchitecture) hrecord)
    simp at h
  · refine .inl ?_
    rcases bind_eq_error.1 h with h | ⟨regions, _, h⟩
    · rcases bind_eq_error.1 h with h | ⟨info, _, h⟩
      · exact malformed h
      · obtain ⟨steps, hsteps⟩ := gather_eq_ok_iff.1 hgathered
        exact RegionMap.ofMemory_of_build hsteps.extended.reachable.wellFormed.separated h
    · simp at h

/-- A load fails only on a malformed dump, on the processor that its system information names, and
on two overlapping ranges of memory. The load of a file fails also if the file cannot be read. -/
theorem load_faults :
    (∀ data options disk fault, load data options disk = .error fault →
      (∃ malformed, fault = .malformed malformed) ∨
      (∃ tag, fault = .unsupportedArchitecture tag ∧ Architecture.ofTag? tag = none ∧
        Container.HasProcessor data tag) ∨
      ∃ first second, fault = .corruptMemoryMap first second ∧ first.precedes second = true ∧
        ∃ a, first.contains a = true ∧ second.contains a = true) ∧
    ∀ path options disk,
      (∀ data, disk.read path = .ok data → loadFile path options disk = load data options disk) ∧
      ∀ fault, loadFile path options disk = .error (.unreadable fault) ↔
        disk.read path = .error fault := by
  have hload : ∀ data options disk fault, load data options disk = .error fault →
      (∃ malformed, fault = .malformed malformed) ∨
      (∃ tag, fault = .unsupportedArchitecture tag ∧ Architecture.ofTag? tag = none ∧
        Container.HasProcessor data tag) ∨
      ∃ first second, fault = .corruptMemoryMap first second ∧ first.Clash second := by
    intro data options disk fault h
    rcases fault_cases h with (hmalformed | hclash) | htag
    · exact .inl hmalformed
    · exact .inr (.inr hclash)
    · exact .inr (.inl htag)
  refine ⟨hload, fun path options disk => ⟨fun data hdata => ?_, fun fault => ?_⟩⟩
  · rw [loadFile, hdata]
  · cases hread : disk.read path with
    | error found => simp [loadFile, hread]
    | ok data =>
      simp only [loadFile, hread, reduceCtorEq, iff_false]
      intro h
      rcases hload data options disk _ h with ⟨_, h⟩ | ⟨_, h, _⟩ | ⟨_, _, h, _⟩
      all_goals exact SnapshotFault.noConfusion h

/-- A dump of a processor that no layout is for. -/
def foreign : Buffer :=
  let header : Header := ⟨Container.signature, 0, 1, 32, 0, 0, 0⟩
  let entry : DirectoryEntry := ⟨StreamKind.systemInfo.tag, 56, 44⟩
  let system : SystemInfo := ⟨6, 0, 0, 1, 0, 0, 0, 0, 2, 0, 0, 0, Vector.replicate 24 0⟩
  Buffer.ofBytes (Record.write header ++ Record.write entry ++ Record.write system)

/-- A dump with two memory records that overlap. -/
def overlapping : Buffer :=
  let header : Header := ⟨Container.signature, 0, 2, 32, 0, 0, 0⟩
  let directory : List DirectoryEntry := [⟨StreamKind.systemInfo.tag, 56, 56⟩,
    ⟨StreamKind.memoryList.tag, 36, 112⟩]
  let system : SystemInfo := ⟨9, 0, 0, 1, 0, 0, 0, 0, 2, 0, 0, 0, Vector.replicate 24 0⟩
  let records : List MemoryDescriptor := [⟨0x1000, 4, 148⟩, ⟨0x1002, 4, 148⟩]
  Buffer.ofBytes (Record.write header ++ directory.flatMap Record.write ++ Record.write system ++
    Record.write (2 : UInt32) ++ records.flatMap Record.write ++ [1, 2, 3, 4])

theorem load_overlapping : load overlapping .standard noFiles =
    .error (.corruptMemoryMap ⟨⟨0x1000⟩, ⟨0x1004⟩⟩ ⟨⟨0x1002⟩, ⟨0x1006⟩⟩) := by
  let c := Container.read overlapping
  let first : MemoryRecord := ⟨⟨⟨0x1000⟩, ⟨0x1004⟩⟩, 148⟩
  let second : MemoryRecord := ⟨⟨⟨0x1002⟩, ⟨0x1006⟩⟩, 148⟩
  have hcomplete : Container.Complete overlapping := by
    have hcount : Container.streamCount overlapping = 2 := by decide +kernel
    refine ⟨by decide +kernel, by decide +kernel, by decide +kernel, ?_⟩
    rw [hcount]
    decide +kernel
  obtain ⟨system, hsystem, hfields⟩ : ∃ system, systemInfoOf c = .ok system ∧
      (system.processor, system.platform) = (9, 2) :=
    exists_ok_of_map (by decide +kernel)
  obtain ⟨hprocessor, hplatform⟩ := Prod.mk.inj hfields
  have hmodules : ModuleList.ofContainer c .windows noFiles [] = .ok (⟨[]⟩, []) := by
    decide +kernel
  have hrecords : c.memoryRecords = .ok [first, second] := by decide +kernel
  have hsorted : Captured.sorted [first, second] = [first, second] :=
    List.mergeSort_of_pairwise (by decide)
  have hbuild : Captured.build [first, second] overlapping =
      .error (.corruptMemoryMap first.range second.range) := by
    rw [Captured.build, hsorted]
    decide +kernel
  refine bind_eq_error.2 (.inl ?_)
  refine bind_eq_error.2 (.inr ⟨c, Malformed.lift_eq_ok.2 (Container.parse_eq_ok_iff.2
    ⟨hcomplete, rfl⟩), ?_⟩)
  refine bind_eq_error.2 (.inr ⟨system, Malformed.lift_eq_ok.2 hsystem, ?_⟩)
  refine bind_eq_error.2 (.inr ⟨.amd64, by rw [hprocessor]; rfl, ?_⟩)
  rw [hplatform]
  refine bind_eq_error.2 (.inr ⟨_, Malformed.lift_eq_ok.2 hmodules, ?_⟩)
  refine bind_eq_error.2 (.inr ⟨_, Malformed.lift_eq_ok.2 hrecords, ?_⟩)
  exact bind_eq_error.2 (.inl hbuild)

theorem load_faults_foreign :
    load foreign .standard noFiles = .error (.unsupportedArchitecture 6) ∧
    Container.HasProcessor foreign 6 ∧
    (∃ first second, load overlapping .standard noFiles = .error (.corruptMemoryMap first second) ∧
      first = ⟨⟨0x1000⟩, ⟨0x1004⟩⟩ ∧ second = ⟨⟨0x1002⟩, ⟨0x1006⟩⟩ ∧
      ∃ a, first.contains a = true ∧ second.contains a = true) ∧
    loadFile "core" .standard noFiles = .error (.unreadable .notFound) := by
  have hforeign : load foreign .standard noFiles = .error (.unsupportedArchitecture 6) := by
    decide +kernel
  refine ⟨hforeign, ?_, ⟨_, _, load_overlapping, rfl, rfl, ?_⟩, ?_⟩
  · rcases load_faults.1 _ _ _ _ hforeign with ⟨_, h⟩ | ⟨tag, h, _, htag⟩ | ⟨_, _, h, _⟩
    · exact SnapshotFault.noConfusion h
    · obtain rfl := SnapshotFault.unsupportedArchitecture.inj h
      exact htag
    · exact SnapshotFault.noConfusion h
  · rcases load_faults.1 _ _ _ _ load_overlapping with
      ⟨_, h⟩ | ⟨_, h, _⟩ | ⟨first, second, h, _, ha⟩
    · exact SnapshotFault.noConfusion h
    · exact SnapshotFault.noConfusion h
    · obtain ⟨rfl, rfl⟩ := SnapshotFault.corruptMemoryMap.inj h
      exact ha
  · exact ((load_faults.2 "core" .standard noFiles).2 .notFound).2 rfl

end Snapshot
end CrashDump

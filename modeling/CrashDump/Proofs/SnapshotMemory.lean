import CrashDump.Proofs.CapturedRead
import CrashDump.Proofs.Loading
import CrashDump.Proofs.RegionTiling

/-!
# Reading the memory of a snapshot

A read gives the longest run of captured bytes, and the region map says why it ends. What the
records of the dump describe is read back as it stands in the dump.
-/
namespace CrashDump.Snapshot

variable {data : Buffer} {options : LoadOptions} {disk : Disk} {s : Snapshot}

namespace Steps.Lead

variable {steps : Steps} (lead : steps.Lead data options disk s)
include lead

theorem extended :
    Captured.Extends steps.container steps.captured steps.threadRecords s.memory :=
  lead.gather.extended

theorem wellFormed : s.memory.WellFormed := lead.extended.reachable.wellFormed

theorem exists_build :
    ∃ maps info, RegionMap.build maps info s.memory s.modules = .ok s.regions := by
  obtain ⟨info, _, h⟩ := bind_eq_ok.1 lead.regions
  exact ⟨_, info, h⟩

theorem separated : Interval.Separated s.regions.ranges := by
  obtain ⟨maps, info, h⟩ := lead.exists_build
  exact RegionMap.build_separated lead.wellFormed.separated h

/-- What is mapped is captured, if captured memory is all that the map is made from. -/
theorem captured_of_isMapped (hs : s.regions.source = .captured) {a : Address}
    (ha : (s.region a).isMapped = true) : (s.memory.byteAt? a).isSome = true := by
  obtain ⟨maps, info, h⟩ := lead.exists_build
  have hmapped := (RegionMap.isMapped_regionAt lead.separated).1 ha
  rw [RegionMap.mappings_of_source lead.wellFormed.separated h hs, RegionMap.contains_shown] at hmapped
  exact lead.wellFormed.byteAt?_isSome_iff.2 hmapped

end Steps.Lead

theorem isEmpty_iff_size {bytes : Buffer} : bytes.isEmpty = true ↔ bytes.size = 0 := by
  simp [ByteArray.isEmpty]

theorem read_eq_full_iff {a : Address} {length : Nat} {bytes : Buffer} :
    s.read a length = .full bytes ↔
      (s.memory.read a length).1 = bytes ∧ bytes.size = length := by
  unfold read
  simp only
  by_cases hfull : (s.memory.read a length).1.size = length
  · rw [if_pos hfull]
    constructor
    · intro h
      obtain rfl := MemoryRead.full.inj h
      exact ⟨rfl, hfull⟩
    · rintro ⟨rfl, _⟩
      rfl
  · rw [if_neg hfull]
    constructor
    · intro h
      split at h
      all_goals
        split at h
        all_goals
          exact MemoryRead.noConfusion h
    · rintro ⟨rfl, h⟩
      exact absurd h hfull

/-- The answer to a read by how many bytes could be read and what lies where they end. -/
theorem read_eq {a stop : Address} {length : Nat} {bytes : Buffer}
    (h : s.memory.read a length = (bytes, stop)) :
    s.read a length =
      if bytes.size = length then .full bytes
      else if (s.region stop).isMapped then
        if bytes.size = 0 then .notCaptured else .broken bytes .notCaptured
      else if bytes.size = 0 then .unmapped else .broken bytes .unmapped := by
  simp only [read, h, isEmpty_iff_size]

theorem Steps.Lead.read_split {steps : Steps} (lead : steps.Lead data options disk s)
    {a : Address} {m n : Nat} {bytes : Buffer} (h : s.read a (m + n) = .full bytes) :
    ∃ middle x y, a.add? m = some middle ∧ s.read a m = .full x ∧
      s.read middle n = .full y ∧ bytes = x ++ y := by
  obtain ⟨rfl, hsize⟩ := read_eq_full_iff.1 h
  have hreads := lead.wellFormed.reads a (m + n)
  obtain ⟨middle, hm, hfirst, hsecond⟩ := hreads.split hsize
  obtain ⟨hx, _⟩ := (lead.wellFormed.reads a m).unique hfirst
  obtain ⟨hy, _⟩ := (lead.wellFormed.reads middle n).unique hsecond
  refine ⟨middle, _, _, hm, read_eq_full_iff.2 ⟨hx, ?_⟩, read_eq_full_iff.2 ⟨hy, ?_⟩,
    (Buffer.extract_append hsize).symm⟩
  · rw [ByteArray.size_extract]
    omega
  · rw [ByteArray.size_extract]
    omega

/-- A dump of a thread whose stack goes on where the only memory record ends, in one mapping. -/
def sample : Buffer :=
  let header : Header := ⟨Container.signature, 0, 4, 32, 0, 0, 0⟩
  let directory : List DirectoryEntry := [⟨StreamKind.systemInfo.tag, 56, 80⟩,
    ⟨StreamKind.threadList.tag, 52, 136⟩, ⟨StreamKind.memoryList.tag, 20, 188⟩,
    ⟨StreamKind.memoryInfoList.tag, 64, 208⟩]
  let system : SystemInfo := ⟨9, 0, 0, 1, 0, 0, 0, 0, 0x8201, 0, 0, 0, Vector.replicate 24 0⟩
  let thread : ThreadRecord := ⟨1, 0, 0, 0, 0, ⟨0x1004, 3, 276⟩, ⟨0, 0⟩⟩
  let memory : MemoryDescriptor := ⟨0x1000, 4, 272⟩
  let pages : MemoryInfo := ⟨0x1000, 0x1000, 4, 0, 0x1000, MemoryInfo.committed, 4, 0, 0⟩
  Buffer.ofBytes (Record.write header ++ directory.flatMap Record.write ++ Record.write system ++
    Record.write (1 : UInt32) ++ Record.write thread ++ Record.write (1 : UInt32) ++
    Record.write memory ++ Record.write (⟨16, 48, 1⟩ : MemoryInfoHeader) ++ Record.write pages ++
    [1, 2, 3, 4, 5, 6, 7])

/-- A disk without files. -/
def noFiles : Disk := { read := fun _ => .error .notFound }

theorem load_sample : ∃ s, load sample .standard noFiles = .ok s ∧
    s.read ⟨0x1000⟩ 7 = .full (Buffer.ofBytes [1, 2, 3, 4, 5, 6, 7]) := by
  have h : (load sample .standard noFiles).toOption.map (fun s => s.read ⟨0x1000⟩ 7) =
      some (.full (Buffer.ofBytes [1, 2, 3, 4, 5, 6, 7])) := by
    decide +kernel
  exact exists_ok_of_map h

/-- A read gives the longest run of captured bytes, and says exactly why it is not longer. -/
theorem read_longest (h : load data options disk = .ok s) :
    (∀ a length, ∃ (k : Nat) (bytes : Buffer) (stop : Address),
      IsGreatest {n | n ≤ length ∧ ∀ i < n, (s.memory.byteAfter? a i).isSome = true} k ∧
      bytes.size = k ∧ (∀ i < k, s.memory.byteAfter? a i = bytes.bytes[i]?) ∧
      a.add? k = some stop ∧
      s.read a length =
        if k = length then .full bytes
        else if (s.region stop).isMapped then
          if k = 0 then .notCaptured else .broken bytes .notCaptured
        else if k = 0 then .unmapped else .broken bytes .unmapped) ∧
    (∀ a m n bytes, s.read a (m + n) = .full bytes →
      ∃ middle x y, a.add? m = some middle ∧ s.read a m = .full x ∧ s.read middle n = .full y ∧
        bytes = x ++ y) ∧
    (s.regions.source = .captured → ∀ a length,
      s.read a length ≠ .notCaptured ∧ ∀ bytes, s.read a length ≠ .broken bytes .notCaptured) := by
  obtain ⟨steps, lead⟩ := exists_steps h
  have hreads := lead.wellFormed.reads
  refine ⟨fun a length => ?_, fun a m n bytes hfull => lead.read_split hfull, ?_⟩
  · have hread := hreads a length
    exact ⟨_, _, _, hread.isGreatest, rfl, hread.held, hread.stop_eq, read_eq rfl⟩
  · intro hs a length
    have hread := hreads a length
    have hunmapped : (s.memory.read a length).1.size ≠ length →
        (s.region (s.memory.read a length).2).isMapped = false := by
      intro hne
      rw [← Bool.not_eq_true]
      intro hmapped
      have hsome := lead.captured_of_isMapped hs hmapped
      rw [hread.maximal (Nat.lt_of_le_of_ne hread.size_le hne)] at hsome
      exact Bool.noConfusion hsome
    rw [read_eq rfl]
    by_cases hfull : (s.memory.read a length).1.size = length
    · rw [if_pos hfull]
      exact ⟨MemoryRead.noConfusion, fun _ => MemoryRead.noConfusion⟩
    · rw [if_neg hfull, hunmapped hfull, if_neg Bool.false_ne_true]
      split
      · exact ⟨MemoryRead.noConfusion, fun _ => MemoryRead.noConfusion⟩
      · simp

theorem read_longest_sample : ∃ s, load sample .standard noFiles = .ok s ∧
    (∃ k ≤ 16, ∃ (bytes : Buffer) (stop : Address), bytes.size = k ∧
      Address.add? ⟨0x1000⟩ k = some stop ∧ ∀ i < k, s.memory.byteAfter? ⟨0x1000⟩ i = bytes.bytes[i]?) ∧
    ∃ x y, s.read ⟨0x1000⟩ 4 = .full x ∧ s.read ⟨0x1004⟩ 3 = .full y ∧
      Buffer.ofBytes [1, 2, 3, 4, 5, 6, 7] = x ++ y := by
  obtain ⟨s, hs, hread⟩ := load_sample
  obtain ⟨hlongest, hsplit, _⟩ := read_longest hs
  obtain ⟨k, bytes, stop, hk, hsize, hheld, hstop, _⟩ := hlongest ⟨0x1000⟩ 16
  obtain ⟨middle, x, y, hmiddle, hx, hy, hxy⟩ := hsplit ⟨0x1000⟩ 4 3 _ hread
  obtain rfl : ⟨0x1004⟩ = middle := Option.some.inj hmiddle
  exact ⟨s, hs, ⟨k, hk.1.1, bytes, stop, hsize, hstop, hheld⟩, x, y, hx, hy, hxy⟩

namespace Steps.Lead

variable {steps : Steps} (lead : steps.Lead data options disk s)
include lead

/-- A record of the dump is read back as it stands in the dump. -/
theorem read_record {r : MemoryRecord} (hr : r ∈ steps.records) (hn : r.range.isEmpty = false) :
    ∃ bytes, data.slice? r.dataOffset r.range.length = some bytes ∧
      s.read r.range.start r.range.length = .full bytes := by
  obtain ⟨t, ht, hrt⟩ := (Captured.build_spec lead.captured).2.1 r hr hn
  obtain ⟨hrange, hslice⟩ := Captured.segmentOf_eq_ok_iff.1 hrt
  have hread := lead.wellFormed.read_segment (lead.extended.kept ht)
  rw [hrange] at hread
  exact ⟨t.bytes, hslice, read_eq_full_iff.2 ⟨congrArg Prod.fst hread, Buffer.size_of_slice? hslice⟩⟩

/-- A captured byte is one of a record, or of the stack of a thread. -/
theorem origin {a : Address} {b : UInt8} (h : s.memory.byteAt? a = some b) :
    (∃ r ∈ steps.records, r.range.contains a = true) ∨
      ∃ t ∈ steps.threadRecords, ∃ range, t.stackRange? = some range ∧
        range.contains a = true ∧
        data.bytes[t.stack.location.offset.toNat + (a.toNat - range.start.toNat)]? = some b := by
  obtain ⟨segment, hsegment, hb⟩ := List.exists_of_findSome?_eq_some h
  obtain ⟨hc, hbyte⟩ := Segment.byteAt?_eq_some_iff.1 hb
  rcases lead.extended.added segment hsegment with hold | ⟨t, ht, hrange, hbytes⟩
  · obtain ⟨r, hr, _, hrs⟩ := (Captured.build_spec lead.captured).2.2 segment hold
    rw [(Captured.segmentOf_eq_ok_iff.1 hrs).1] at hc
    exact .inl ⟨r, hr, hc⟩
  · refine .inr ⟨t, ht, segment.range, hrange, hc, ?_⟩
    rw [Container.located_eq_ok_iff, Container.data_of_parse lead.container] at hbytes
    obtain ⟨_, hextract⟩ := Buffer.slice?_eq_some_iff.1 hbytes
    rw [← hextract, Buffer.bytes_extract, List.getElem?_take] at hbyte
    split at hbyte
    · rw [List.getElem?_drop] at hbyte
      exact hbyte
    · simp at hbyte

theorem byteAt?_of_read {a : Address} {b : UInt8} (h : s.read a 1 = .full (Buffer.ofBytes [b])) :
    s.memory.byteAt? a = some b := by
  obtain ⟨hread, _⟩ := read_eq_full_iff.1 h
  have hsize : 0 < (Buffer.ofBytes [b]).size := Nat.one_pos
  have hheld := (lead.wellFormed.reads a 1).held 0 (by rw [hread]; exact hsize)
  rw [hread, Captured.byteAfter?_zero] at hheld
  exact hheld

end Steps.Lead

/-- Captured memory is what the dump says: each record of it is read back whole, and any other byte
is from where the stack of a thread is in the dump. -/
theorem read_faithful (h : load data options disk = .ok s) :
    ∃ c records threads, Container.parse data = .ok c ∧ c.memoryRecords = .ok records ∧
      c.threads = .ok threads ∧
      (∀ r ∈ records, r.range.isEmpty = false →
        ∃ bytes, data.slice? r.dataOffset r.range.length = some bytes ∧
          s.read r.range.start r.range.length = .full bytes) ∧
      ∀ a b, s.read a 1 = .full (Buffer.ofBytes [b]) →
        (∃ r ∈ records, r.range.contains a = true) ∨
          ∃ t ∈ threads, ∃ range, t.stackRange? = some range ∧ range.contains a = true ∧
            data.bytes[t.stack.location.offset.toNat + (a.toNat - range.start.toNat)]? =
              some b := by
  obtain ⟨steps, lead⟩ := exists_steps h
  exact ⟨steps.container, steps.records, steps.threadRecords, lead.container, lead.records,
    lead.threadRecords, fun r hr hn => lead.read_record hr hn,
    fun a b hb => lead.origin (lead.byteAt?_of_read hb)⟩

theorem read_faithful_sample : ∃ s, load sample .standard noFiles = .ok s ∧
    (∃ bytes, sample.slice? 272 4 = some bytes ∧ s.read ⟨0x1000⟩ 4 = .full bytes) ∧
    ∀ b, s.read ⟨0x1006⟩ 1 = .full (Buffer.ofBytes [b]) → sample.bytes[278]? = some b := by
  obtain ⟨s, hs, _⟩ := load_sample
  obtain ⟨c, records, threads, hc, hrecords, hthreads, hread, horigin⟩ := read_faithful hs
  have hlists : (Container.parse sample).toOption.map (fun c =>
      (c.memoryRecords.toOption, c.threads.toOption)) =
      some (some [⟨⟨⟨0x1000⟩, ⟨0x1004⟩⟩, 272⟩],
        some [⟨1, 0, 0, 0, 0, ⟨0x1004, 3, 276⟩, ⟨0, 0⟩⟩]) := by
    decide +kernel
  simp only [hc, hrecords, hthreads, Except.toOption, Option.map_some, Option.some.injEq,
    Prod.mk.injEq] at hlists
  obtain ⟨rfl, rfl⟩ := hlists
  have hlength : Interval.length ⟨⟨0x1000⟩, ⟨0x1004⟩⟩ = 4 := by decide
  have hrecord := hread ⟨⟨⟨0x1000⟩, ⟨0x1004⟩⟩, 272⟩ (List.mem_singleton.2 rfl) (by decide)
  simp only [hlength] at hrecord
  refine ⟨s, hs, hrecord, fun b hb => ?_⟩
  rcases horigin ⟨0x1006⟩ b hb with ⟨r, hr, hin⟩ | ⟨t, ht, range, hrange, _, hbyte⟩
  · obtain rfl := List.mem_singleton.1 hr
    exact absurd hin (by decide)
  · obtain rfl := List.mem_singleton.1 ht
    obtain rfl : ⟨⟨0x1004⟩, ⟨0x1007⟩⟩ = range := Option.some.inj hrange
    exact hbyte

end CrashDump.Snapshot

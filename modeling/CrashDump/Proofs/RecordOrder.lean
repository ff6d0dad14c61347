import CrashDump.Proofs.CapturedLaws

/-!
# Records in whatever order

Records make a store exactly if no two of them contradict each other, and what they make, or which
two intervals they are refused for, does not depend on their order.
-/
namespace CrashDump.Captured

variable {dump : Buffer} {records others : List MemoryRecord} {r q : MemoryRecord}
  {memory more : Captured} {found reports : List Diagnostic} {s t : Segment}

/-- Two records share an address, but are not of the same interval with the same bytes. -/
structure Contradict (dump : Buffer) (r q : MemoryRecord) : Prop where
  shared : ∃ a, r.range.contains a = true ∧ q.range.contains a = true
  differ : ¬ (r.range = q.range ∧
    dump.slice? r.dataOffset r.range.length = dump.slice? q.dataOffset q.range.length)

theorem Contradict.symm (h : Contradict dump r q) : Contradict dump q r := by
  obtain ⟨⟨a, hr, hq⟩, hdiffer⟩ := h
  exact ⟨⟨a, hq, hr⟩, fun ⟨hrange, hbytes⟩ => hdiffer ⟨hrange.symm, hbytes.symm⟩⟩

theorem Contradict.nonempty (h : Contradict dump r q) : r.range.isEmpty = false := by
  obtain ⟨⟨a, ha, _⟩, _⟩ := h
  rw [Interval.contains_iff] at ha
  exact Interval.isEmpty_eq_false_iff.2 (by omega)

theorem contradict_iff (hr : segmentOf dump r = .ok s) (hq : segmentOf dump q = .ok t) :
    Contradict dump r q ↔
      (∃ a, s.range.contains a = true ∧ t.range.contains a = true) ∧ s ≠ t := by
  obtain ⟨hrange, hbytes⟩ := segmentOf_eq_ok_iff.1 hr
  obtain ⟨hrange', hbytes'⟩ := segmentOf_eq_ok_iff.1 hq
  have hsame : (r.range = q.range ∧ dump.slice? r.dataOffset r.range.length =
      dump.slice? q.dataOffset q.range.length) ↔ s = t := by
    rw [hbytes, hbytes', ← hrange, ← hrange', Option.some.injEq]
    cases s
    cases t
    simp
  rw [hrange, hrange', ne_eq, ← hsame]
  exact ⟨fun h => ⟨h.shared, h.differ⟩, fun ⟨hshared, hdiffer⟩ => ⟨hshared, hdiffer⟩⟩

/-- No two records of a store contradict each other. -/
theorem WellFormed.not_contradict (h : memory.WellFormed) (hs : s ∈ memory.segments)
    (ht : t ∈ memory.segments) (hr : segmentOf dump r = .ok s) (hq : segmentOf dump q = .ok t) :
    ¬ Contradict dump r q := by
  rw [contradict_iff hr hq]
  rintro ⟨⟨a, hsa, hta⟩, hne⟩
  exact hne (h.eq_of_contains hs ht hsa hta)

/-- Of all intervals of records that contradict each other, the pair with the least second one, and
of these the one with the least first one. -/
structure FirstContradiction (dump : Buffer) (records : List MemoryRecord)
    (first second : Interval) : Prop where
  ordered : first.precedes second = true
  named : ∃ r ∈ records, ∃ q ∈ records, Contradict dump r q ∧ r.range = first ∧ q.range = second
  least : ∀ r ∈ records, ∀ q ∈ records, Contradict dump r q → r.range.precedes q.range = true →
    second.precedes q.range = true ∧ (q.range = second → first.precedes r.range = true)

theorem FirstContradiction.unique {first second first' second' : Interval}
    (h : FirstContradiction dump records first second)
    (h' : FirstContradiction dump others first' second')
    (hmem : ∀ r, r ∈ others ↔ r ∈ records) : first = first' ∧ second = second' := by
  obtain ⟨hle, hnamed, hleast⟩ := h
  obtain ⟨hle', hnamed', hleast'⟩ := h'
  simp only [hmem] at hnamed' hleast'
  obtain ⟨r, hr, q, hq, hcontra, rfl, rfl⟩ := hnamed
  obtain ⟨r', hr', q', hq', hcontra', rfl, rfl⟩ := hnamed'
  obtain ⟨hsecond, hfirst⟩ := hleast r' hr' q' hq' hcontra' hle'
  obtain ⟨hsecond', hfirst'⟩ := hleast' r hr q hq hcontra hle
  have heq := Interval.eq_of_precedes hsecond hsecond'
  exact ⟨Interval.eq_of_precedes (hfirst heq.symm) (hfirst' heq), heq⟩

/-- Of records in their order, those in `front` make a store. A contradiction then ends no earlier
than the next record, and if it ends there it starts no earlier than what the store holds there. -/
theorem Assembled.least {front back : List MemoryRecord} {record : MemoryRecord} {other : Segment}
    (h : Assembled dump empty front memory)
    (hs : (front ++ record :: back).Pairwise fun r q => r.range.precedes q.range = true)
    (hother : other ∈ memory.segments) (hordered : other.range.precedes record.range = true)
    (hin : other.range.contains record.range.start = true) (hr : r ∈ front ++ record :: back)
    (hq : q ∈ front ++ record :: back) (hcontra : Contradict dump r q)
    (hrq : r.range.precedes q.range = true) :
    record.range.precedes q.range = true ∧
      (q.range = record.range → other.range.precedes r.range = true) := by
  obtain ⟨_, hlater, hacross⟩ := List.pairwise_append.1 hs
  have hfrom : ∀ r ∈ record :: back, record.range.precedes r.range = true := by
    intro r hr
    rcases List.mem_cons.1 hr with rfl | hr
    · exact Interval.precedes_refl _
    · exact (List.pairwise_cons.1 hlater).1 r hr
  rcases List.mem_append.1 hr with hr | hr
  · obtain ⟨s, hs, hrs⟩ := h.described r hr
    refine ⟨?_, fun hsame => ?_⟩
    · rcases List.mem_append.1 hq with hq | hq
      · obtain ⟨t, ht, hqt⟩ := h.described q hq
        exact absurd hcontra (h.wellFormed.not_contradict hs ht hrs hqt)
      · exact hfrom q hq
    · -- both are kept and hold the start of the record, so that they are one segment
      have hin' := Interval.contains_start_of_precedes (hsame ▸ hrq) (hsame ▸ hcontra.shared)
      rw [← (segmentOf_eq_ok_iff.1 hrs).1] at hin' ⊢
      rw [h.wellFormed.eq_of_contains hs hother hin' hin]
      exact Interval.precedes_refl _
  · exact ⟨Interval.precedes_trans (hfrom r hr) hrq, fun _ =>
      Interval.precedes_trans hordered (hfrom r hr)⟩

/-- A store is refused for the first contradiction of its records, unless one has no bytes. -/
theorem build_eq_error {fault : SnapshotFault} (h : build records dump = .error fault) :
    (∃ r ∈ records, r.range.isEmpty = false ∧ segmentOf dump r = .error fault) ∨
      ∃ first second, fault = .corruptMemoryMap first second ∧
        FirstContradiction dump records first second := by
  obtain ⟨front, record, back, kept, hsplit, hkept, hfails⟩ :=
    assemble_eq_error h (due_sorted records)
  have hmem : ∀ r, r ∈ front ++ record :: back ↔ r ∈ records ∧ r.range.isEmpty = false := by
    intro r
    rw [← hsplit, mem_sorted]
  have hsorted := pairwise_sorted records
  rw [hsplit] at hsorted
  have hrecord := (hmem record).1 (by simp)
  rcases hfails with hmissing | ⟨segment, hsegment, other, hother, hoverlaps, hne, rfl⟩
  · exact .inl ⟨record, hrecord.1, hrecord.2, hmissing⟩
  obtain ⟨earlier, hearlier, hown⟩ : ∃ r ∈ front, segmentOf dump r = .ok other :=
    (hkept.recorded other hother).resolve_left (by simp [segments, empty])
  have hrange := (segmentOf_eq_ok_iff.1 hsegment).1
  have hrange' := (segmentOf_eq_ok_iff.1 hown).1
  have hmem' := (hmem earlier).1 (by simp [hearlier])
  have hordered : other.range.precedes record.range = true := by
    rw [hrange']
    exact (List.pairwise_append.1 hsorted).2.2 earlier hearlier record List.mem_cons_self
  have hshared : ∃ a, other.range.contains a = true ∧ segment.range.contains a = true :=
    (Interval.overlaps_iff_exists (hrange' ▸ hmem'.2) (hrange ▸ hrecord.2)).1 hoverlaps
  have hin := Interval.contains_start_of_precedes hordered (hrange ▸ hshared)
  rw [hrange]
  refine .inr ⟨_, _, rfl, hordered, ⟨earlier, hmem'.1, record, hrecord.1,
    (contradict_iff hown hsegment).2 ⟨hshared, hne⟩, hrange'.symm, rfl⟩, ?_⟩
  intro r hr q hq hcontra hrq
  exact hkept.least hsorted hother hordered hin ((hmem r).2 ⟨hr, hcontra.nonempty⟩)
    ((hmem q).2 ⟨hq, hcontra.symm.nonempty⟩) hcontra hrq

/-- Records that have their bytes in the dump. -/
def Inside (dump : Buffer) (records : List MemoryRecord) : Prop :=
  ∀ r ∈ records, r.range.isEmpty = false → r.dataOffset + r.range.length ≤ dump.size

theorem Inside.of_perm (h : Inside dump records) (hp : others.Perm records) : Inside dump others :=
  fun r hr => h r (hp.mem_iff.1 hr)

theorem Inside.exists_firstContradiction {fault : SnapshotFault} (h : Inside dump records)
    (hfails : build records dump = .error fault) :
    ∃ first second, fault = .corruptMemoryMap first second ∧
      FirstContradiction dump records first second := by
  refine (build_eq_error hfails).resolve_left ?_
  rintro ⟨r, hr, hn, hmissing⟩
  have hbytes := Buffer.slice?_eq_some_iff.2 ⟨h r hr hn, rfl⟩
  simp [segmentOf, hbytes] at hmissing

theorem not_contradict_of_build (h : build records dump = .ok (memory, found)) (hr : r ∈ records)
    (hq : q ∈ records) : ¬ Contradict dump r q := by
  intro hcontra
  obtain ⟨hw, hdescribed, _⟩ := build_spec h
  obtain ⟨s, hs, hrs⟩ := hdescribed r hr hcontra.nonempty
  obtain ⟨t, ht, hqt⟩ := hdescribed q hq hcontra.symm.nonempty
  exact hw.not_contradict hs ht hrs hqt hcontra

/-- A store lists each interval once; what the records say more often is reported. -/
theorem build_found (h : build records dump = .ok (memory, found)) :
    ∃ dropped : List Interval, found = dropped.map .duplicateMemory ∧
      (dropped.Pairwise fun r q => r.precedes q = true) ∧
      ((records.map MemoryRecord.range).filter fun r => !r.isEmpty).Perm
        (memory.ranges ++ dropped) := by
  obtain ⟨dropped, hfound, hsublist, hperm⟩ := assemble_found h
  refine ⟨dropped, hfound, ?_, ?_⟩
  · exact (List.pairwise_map.2 (pairwise_sorted records)).sublist hsublist
  · rw [List.filter_map]
    exact ((List.mergeSort_perm _ _).map MemoryRecord.range).symm.trans hperm

/-- The same records in another order make a store of the same segments, with the same reports. -/
theorem Inside.build_of_perm (hinside : Inside dump records)
    (h : build records dump = .ok (memory, found)) (hp : others.Perm records) :
    ∃ more, build others dump = .ok (more, found) ∧ more.segments = memory.segments := by
  cases hothers : build others dump with
  | error fault =>
    obtain ⟨_, _, _, hfirst⟩ := (hinside.of_perm hp).exists_firstContradiction hothers
    obtain ⟨r, hr, q, hq, hcontra, _⟩ := hfirst.named
    exact absurd hcontra (not_contradict_of_build h (hp.mem_iff.1 hr) (hp.mem_iff.1 hq))
  | ok result =>
    obtain ⟨more, reports⟩ := result
    have hsegments : more.segments = memory.segments := by
      refine (build_spec hothers).1.segments_eq (build_spec h).1 fun s => ?_
      simp only [mem_segments_of_build h, mem_segments_of_build hothers, hp.mem_iff]
    have hranges : more.ranges = memory.ranges := by
      rw [← map_range_segments, ← map_range_segments, hsegments]
    obtain ⟨dropped, rfl, hsorted, hperm⟩ := build_found h
    obtain ⟨dropped', rfl, hsorted', hperm'⟩ := build_found hothers
    have hsame : dropped'.Perm dropped := by
      rw [← List.perm_append_left_iff memory.ranges]
      rw [hranges] at hperm'
      exact hperm'.symm.trans (((hp.map _).filter _).trans hperm)
    have heq : dropped' = dropped :=
      hsame.eq_of_pairwise (fun _ _ _ _ => Interval.eq_of_precedes) hsorted' hsorted
    exact ⟨more, by rw [heq], hsegments⟩

theorem Inside.build_eq_error_of_perm {fault : SnapshotFault} (hinside : Inside dump records)
    (h : build records dump = .error fault) (hp : others.Perm records) :
    build others dump = .error fault := by
  have hinside' := hinside.of_perm hp
  cases hothers : build others dump with
  | ok result =>
    obtain ⟨_, hok, _⟩ := hinside'.build_of_perm hothers hp.symm
    simp [h] at hok
  | error fault' =>
    obtain ⟨_, _, rfl, hfirst⟩ := hinside.exists_firstContradiction h
    obtain ⟨_, _, rfl, hfirst'⟩ := hinside'.exists_firstContradiction hothers
    obtain ⟨rfl, rfl⟩ := hfirst.unique hfirst' fun r => hp.mem_iff
    rfl

/-- Records make a store exactly if no two of them contradict each other. -/
theorem Inside.exists_build_iff (hinside : Inside dump records) :
    (∃ memory found, build records dump = .ok (memory, found)) ↔
      ∀ r ∈ records, ∀ q ∈ records, ¬ Contradict dump r q := by
  constructor
  · rintro ⟨memory, found, h⟩ r hr q hq
    exact not_contradict_of_build h hr hq
  · intro hnone
    cases hbuild : build records dump with
    | ok result => exact ⟨result.1, result.2, rfl⟩
    | error fault =>
      obtain ⟨_, _, _, hfirst⟩ := hinside.exists_firstContradiction hbuild
      obtain ⟨r, hr, q, hq, hcontra, _⟩ := hfirst.named
      exact absurd hcontra (hnone r hr q hq)

theorem mem_ranges_of_build (h : build records dump = .ok (memory, found)) {range : Interval} :
    range ∈ memory.ranges ↔ range.isEmpty = false ∧ ∃ r ∈ records, r.range = range := by
  obtain ⟨_, hdescribed, hheld⟩ := build_spec h
  rw [← map_range_segments, List.mem_map]
  constructor
  · rintro ⟨s, hs, rfl⟩
    obtain ⟨r, hr, hn, hrs⟩ := hheld s hs
    rw [(segmentOf_eq_ok_iff.1 hrs).1]
    exact ⟨hn, r, hr, rfl⟩
  · rintro ⟨hn, r, hr, rfl⟩
    obtain ⟨s, hs, hrs⟩ := hdescribed r hr hn
    exact ⟨s, hs, (segmentOf_eq_ok_iff.1 hrs).1⟩

/-- Records with their bytes in the dump make a store exactly if any two that share an address are
of one interval and have the same bytes. Their order is of no account, neither for the store and
what is reported nor for the two intervals that they are refused for. -/
theorem build_exact (hinside : ∀ r ∈ records, r.range.isEmpty = false →
    r.dataOffset + r.range.length ≤ dump.size) :
    ((∃ memory found, build records dump = .ok (memory, found)) ↔
      ∀ r ∈ records, ∀ q ∈ records,
        (∃ a, r.range.contains a = true ∧ q.range.contains a = true) →
        r.range = q.range ∧ dump.slice? r.dataOffset r.range.length =
          dump.slice? q.dataOffset q.range.length) ∧
    (∀ memory found, build records dump = .ok (memory, found) →
      (memory.ranges.Pairwise fun r q => r.start < q.start) ∧
      (∀ range, range ∈ memory.ranges ↔
        range.isEmpty = false ∧ ∃ r ∈ records, r.range = range) ∧
      (∃ dropped : List Interval, found = dropped.map .duplicateMemory ∧
        ((records.map MemoryRecord.range).filter fun r => !r.isEmpty).Perm
          (memory.ranges ++ dropped)) ∧
      ∀ others : List MemoryRecord, others.Perm records →
        ∃ more, build others dump = .ok (more, found) ∧ Agree memory more ∧
          ∀ a, memory.byteAt? a = more.byteAt? a) ∧
    ∀ fault, build records dump = .error fault →
      (∃ r ∈ records, ∃ q ∈ records, fault = .corruptMemoryMap r.range q.range ∧
        (∃ a, r.range.contains a = true ∧ q.range.contains a = true) ∧
        ¬ (r.range = q.range ∧ dump.slice? r.dataOffset r.range.length =
          dump.slice? q.dataOffset q.range.length)) ∧
      ∀ others : List MemoryRecord, others.Perm records → build others dump = .error fault := by
  have hinside : Inside dump records := hinside
  refine ⟨?_, fun memory found h => ⟨(build_spec h).1.separated.ascending,
    fun range => mem_ranges_of_build h, ?_, fun others hp => ?_⟩, fun fault h => ⟨?_,
      fun others hp => hinside.build_eq_error_of_perm h hp⟩⟩
  · rw [hinside.exists_build_iff]
    refine forall₄_congr fun r hr q hq => ⟨fun hnone hshared => ?_, fun hsame hcontra => ?_⟩
    · exact not_not.1 fun hdiffer => hnone ⟨hshared, hdiffer⟩
    · exact hcontra.differ (hsame hcontra.shared)
  · obtain ⟨dropped, hfound, _, hperm⟩ := build_found h
    exact ⟨dropped, hfound, hperm⟩
  · obtain ⟨more, hmore, hsegments⟩ := hinside.build_of_perm h hp
    refine ⟨more, hmore, (build_spec h).1.agree (build_spec hmore).1 hsegments.symm, fun a => ?_⟩
    rw [byteAt?, byteAt?, hsegments]
  · obtain ⟨_, _, rfl, hfirst⟩ := hinside.exists_firstContradiction h
    obtain ⟨r, hr, q, hq, hcontra, rfl, rfl⟩ := hfirst.named
    exact ⟨r, hr, q, hq, rfl, hcontra.shared, hcontra.differ⟩

theorem build_of_sorted (hn : ∀ r ∈ records, r.range.isEmpty = false)
    (hs : records.Pairwise fun r q => r.range.precedes q.range = true) :
    build records dump = assemble dump empty none records := by
  have hfilter : (records.filter fun r => !r.range.isEmpty) = records := by
    rw [List.filter_eq_self]
    intro r hr
    rw [hn r hr]
    rfl
  rw [build, sorted, hfilter, List.mergeSort_of_pairwise hs]

/-- Records of which one repeats another, in two orders, and records that contradict each other. -/
theorem build_exact_repeated :
    let dump := Buffer.ofBytes [1, 2, 1, 2, 3]
    let pair : Interval := ⟨⟨0x10⟩, ⟨0x12⟩⟩
    let last : Interval := ⟨⟨0x12⟩, ⟨0x13⟩⟩
    (∃ m n, build [⟨pair, 0⟩, ⟨pair, 2⟩, ⟨last, 4⟩] dump = .ok (m, [.duplicateMemory pair]) ∧
      build [⟨last, 4⟩, ⟨pair, 0⟩, ⟨pair, 2⟩] dump = .ok (n, [.duplicateMemory pair]) ∧
      m.ranges = [pair, last] ∧ Agree m n) ∧
    build [⟨pair, 0⟩, ⟨pair, 1⟩] dump = .error (.corruptMemoryMap pair pair) ∧
    build [⟨pair, 1⟩, ⟨pair, 0⟩] dump = .error (.corruptMemoryMap pair pair) := by
  intro dump pair last
  have hbuilt : (build [⟨pair, 0⟩, ⟨pair, 2⟩, ⟨last, 4⟩] dump).toOption.map
      (fun built => (built.1.ranges, built.2)) = some ([pair, last], [.duplicateMemory pair]) := by
    rw [build_of_sorted (by decide) (by decide)]
    decide +kernel
  have hrefused : build [⟨pair, 0⟩, ⟨pair, 1⟩] dump = .error (.corruptMemoryMap pair pair) := by
    rw [build_of_sorted (by decide) (by decide)]
    decide +kernel
  obtain ⟨⟨m, found⟩, hm, hseen⟩ := exists_ok_of_map hbuilt
  obtain ⟨hranges, rfl⟩ := Prod.mk.inj hseen
  have hinside : Inside dump [⟨pair, 0⟩, ⟨pair, 2⟩, ⟨last, 4⟩] := by
    unfold Inside
    decide
  have hinside' : Inside dump [⟨pair, 0⟩, ⟨pair, 1⟩] := by
    unfold Inside
    decide
  obtain ⟨_, htaken, _⟩ := build_exact hinside
  obtain ⟨n, hn, hagree, _⟩ := (htaken m _ hm).2.2.2 [⟨last, 4⟩, ⟨pair, 0⟩, ⟨pair, 2⟩] (by decide)
  obtain ⟨_, _, hfails⟩ := build_exact hinside'
  exact ⟨⟨m, n, hm, hn, hranges, hagree⟩, hrefused,
    (hfails _ hrefused).2 _ (List.Perm.swap _ _ _)⟩

end CrashDump.Captured

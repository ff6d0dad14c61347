import CrashDump.Proofs.CapturedInsert
import CrashDump.Proofs.Outcome

/-!
# Building captured memory from records

The store that is built from records holds the bytes of each of them, and nothing else: a record
that is left out repeats one that is kept.
-/
namespace CrashDump.Captured

variable {dump : Buffer} {memory all : Captured} {record : MemoryRecord} {s : Segment}

theorem segmentOf_eq_ok_iff :
    segmentOf dump record = .ok s ↔
      s.range = record.range ∧ dump.slice? record.dataOffset record.range.length = some s.bytes := by
  unfold segmentOf
  cases h : dump.slice? record.dataOffset record.range.length with
  | none => simp
  | some bytes =>
    simp only [Except.ok.injEq, Option.some.injEq]
    constructor
    · rintro rfl
      exact ⟨rfl, rfl⟩
    · rintro ⟨hr, rfl⟩
      rw [← hr]

theorem size_of_segmentOf (h : segmentOf dump record = .ok s) : s.bytes.size = s.range.length := by
  obtain ⟨hr, hs⟩ := segmentOf_eq_ok_iff.1 h
  rw [Buffer.size_of_slice? hs, hr]

/-- A segment that follows the last one and does not overlap it follows all. -/
theorem WellFormed.stop_le_of_last (h : memory.WellFormed) {last : Option Segment}
    (hl : memory.segments.getLast? = last) (hn : s.range.isEmpty = false)
    (hp : ∀ t ∈ last, t.range.precedes s.range = true)
    (ho : ∀ t ∈ last, t.range.overlaps s.range = false) :
    ∀ r ∈ memory.ranges, r.stop ≤ s.range.start := by
  intro r hr
  rw [← map_range_segments] at hr
  cases last with
  | none =>
    rw [List.getLast?_eq_none_iff] at hl
    simp [hl] at hr
  | some t =>
    obtain ⟨front, hf⟩ := List.getLast?_eq_some_iff.1 hl
    have hsep := h.separated_segments
    rw [hf, List.map_append] at hsep hr
    obtain ⟨_, hlast, hc⟩ := Interval.Separated.append_iff.1 hsep
    have hp := Interval.precedes_iff.1 (hp t rfl)
    have ho := ho t rfl
    have hte := Interval.isEmpty_eq_false_iff.1 (hlast.nonempty t.range (by simp))
    rw [← Bool.not_eq_true, Interval.overlaps_iff] at ho
    rw [Interval.isEmpty_eq_false_iff] at hn
    rw [Address.le_def]
    rcases List.mem_append.1 hr with hr | hr
    · have hle := hc r hr t.range (by simp)
      rw [Address.le_def] at hle
      omega
    · obtain rfl : r = t.range := by simpa using hr
      omega

/-- What a store has become after the records were added to it. -/
structure Assembled (dump : Buffer) (memory : Captured) (records : List MemoryRecord)
    (all : Captured) : Prop where
  wellFormed : all.WellFormed
  kept : memory.segments ⊆ all.segments
  described : ∀ r ∈ records, ∃ s ∈ all.segments, segmentOf dump r = .ok s
  recorded : ∀ s ∈ all.segments,
    s ∈ memory.segments ∨ ∃ r ∈ records, segmentOf dump r = .ok s

namespace Assembled

variable {rest : List MemoryRecord}

theorem nil (h : memory.WellFormed) : Assembled dump memory [] memory :=
  ⟨h, List.Subset.refl _, by simp, fun _ hs => .inl hs⟩

/-- A record that repeats what is held. -/
theorem repeated (h : Assembled dump memory rest all) (hs : segmentOf dump record = .ok s)
    (hm : s ∈ memory.segments) : Assembled dump memory (record :: rest) all := by
  refine ⟨h.wellFormed, h.kept, ?_, ?_⟩
  · intro r hr
    rcases List.mem_cons.1 hr with rfl | hr
    · exact ⟨s, h.kept hm, hs⟩
    · exact h.described r hr
  · intro t ht
    rcases h.recorded t ht with ht | ⟨r, hr, hrt⟩
    · exact .inl ht
    · exact .inr ⟨r, by simp [hr], hrt⟩

/-- A record whose segment goes to the end of the view. -/
theorem pushed (h : Assembled dump (memory.push s) rest all) (hs : segmentOf dump record = .ok s)
    (hv : (memory.push s).segments = memory.segments ++ [s]) :
    Assembled dump memory (record :: rest) all := by
  have hkept := h.kept
  have hrecorded := h.recorded
  rw [hv] at hkept hrecorded
  refine ⟨h.wellFormed, fun t ht => hkept (by simp [ht]), ?_, ?_⟩
  · intro r hr
    rcases List.mem_cons.1 hr with rfl | hr
    · exact ⟨s, hkept (by simp), hs⟩
    · exact h.described r hr
  · intro t ht
    rcases hrecorded t ht with ht | ⟨r, hr, hrt⟩
    · rcases List.mem_append.1 ht with ht | ht
      · exact .inl ht
      · obtain rfl : t = s := by simpa using ht
        exact .inr ⟨record, by simp, hs⟩
    · exact .inr ⟨r, by simp [hr], hrt⟩

end Assembled

/-- Sorted records that are to be added to a store that ends with `previous`. -/
structure Due (memory : Captured) (previous : Option Segment) (records : List MemoryRecord) :
    Prop where
  wellFormed : memory.WellFormed
  last : memory.segments.getLast? = previous
  nonempty : ∀ r ∈ records, r.range.isEmpty = false
  sorted : records.Pairwise fun r s => r.range.precedes s.range = true
  after : ∀ t ∈ previous, ∀ r ∈ records, t.range.precedes r.range = true

namespace Due

variable {previous : Option Segment} {rest : List MemoryRecord}

theorem tail (h : Due memory previous (record :: rest)) : Due memory previous rest :=
  ⟨h.wellFormed, h.last, fun r hr => h.nonempty r (by simp [hr]),
    (List.pairwise_cons.1 h.sorted).2, fun t ht r hr => h.after t ht r (by simp [hr])⟩

/-- A record that does not overlap the end of the store becomes its end. -/
theorem push (h : Due memory previous (record :: rest)) (hs : segmentOf dump record = .ok s)
    (ho : ∀ t ∈ previous, t.range.overlaps s.range = false) :
    Due (memory.push s) (some s) rest ∧ (memory.push s).segments = memory.segments ++ [s] := by
  have hrange := (segmentOf_eq_ok_iff.1 hs).1
  have hne : s.range.isEmpty = false := hrange ▸ h.nonempty record (by simp)
  have hlast : ∀ r ∈ memory.ranges, r.stop ≤ s.range.start := by
    refine h.wellFormed.stop_le_of_last h.last hne (fun t ht => ?_) ho
    rw [hrange]
    exact h.after t ht record (by simp)
  obtain ⟨hw, hv⟩ := h.wellFormed.push hne (size_of_segmentOf hs) hlast
  refine ⟨⟨hw, by simp [hv], h.tail.nonempty, h.tail.sorted, fun t ht r hr => ?_⟩, hv⟩
  obtain rfl : s = t := by simpa using ht
  rw [hrange]
  exact (List.pairwise_cons.1 h.sorted).1 r hr

end Due

/-- The first of the records is left out, or refused, or goes to the end of the store. -/
theorem assemble_cons (dump : Buffer) (memory : Captured) (previous : Option Segment)
    (rest : List MemoryRecord) (hs : segmentOf dump record = .ok s) :
    (previous = some s ∧ s.range.overlaps s.range = true ∧
        assemble dump memory previous (record :: rest) =
          (assemble dump memory previous rest).map fun (all, found) =>
            (all, .duplicateMemory record.range :: found)) ∨
      (∃ other, previous = some other ∧ other.range.overlaps s.range = true ∧ other ≠ s ∧
        assemble dump memory previous (record :: rest) =
          .error (.corruptMemoryMap other.range s.range)) ∨
      (∀ t ∈ previous, t.range.overlaps s.range = false) ∧
        assemble dump memory previous (record :: rest) =
          assemble dump (memory.push s) (some s) rest := by
  cases hover : previous.filter fun t => t.range.overlaps s.range with
  | none =>
    refine .inr (.inr ⟨fun t ht => Bool.eq_false_iff.2 ?_, ?_⟩)
    · exact Option.filter_eq_none_iff.1 hover t ht
    · simp only [assemble, hs, hover, bind, Except.bind]
  | some other =>
    obtain ⟨hother, hoverlaps⟩ := Option.filter_eq_some_iff.1 hover
    by_cases heq : other = s
    · refine .inl ⟨heq ▸ hother, heq ▸ hoverlaps, ?_⟩
      simp only [assemble, hs, hover, bind, Except.bind, if_pos heq]
      cases assemble dump memory previous rest with
      | error fault => rfl
      | ok result => rfl
    · refine .inr (.inl ⟨other, hother, hoverlaps, heq, ?_⟩)
      simp only [assemble, hs, hover, bind, Except.bind, if_neg heq]

theorem assemble_spec {previous : Option Segment} {records : List MemoryRecord}
    {found : List Diagnostic} (h : assemble dump memory previous records = .ok (all, found))
    (due : Due memory previous records) : Assembled dump memory records all := by
  induction records generalizing memory previous found with
  | nil =>
    simp only [assemble, Except.ok.injEq, Prod.mk.injEq] at h
    obtain ⟨rfl, _⟩ := h
    exact Assembled.nil due.wellFormed
  | cons record rest ih =>
    obtain ⟨segment, hsegment, _⟩ := bind_eq_ok.1 h
    rcases assemble_cons dump memory previous rest hsegment with
      ⟨hlast, _, hstep⟩ | ⟨_, _, _, _, hstep⟩ | ⟨hapart, hstep⟩
    · rw [hstep] at h
      obtain ⟨⟨more, _⟩, hmore, h⟩ := map_eq_ok.1 h
      obtain ⟨rfl, _⟩ := Prod.mk.inj h
      exact (ih hmore due.tail).repeated hsegment (List.mem_of_getLast? (due.last.trans hlast))
    · simp [hstep] at h
    · obtain ⟨hdue, hsegments⟩ := due.push hsegment hapart
      rw [hstep] at h
      exact (ih h hdue).pushed hsegment hsegments

/-- Adding sorted records fails at one whose bytes are not in the dump or that overlaps, without
being the same, a segment that was kept of those before it. -/
theorem assemble_eq_error {previous : Option Segment} {records : List MemoryRecord}
    {fault : SnapshotFault} (h : assemble dump memory previous records = .error fault)
    (due : Due memory previous records) :
    ∃ front record back kept, records = front ++ record :: back ∧
      Assembled dump memory front kept ∧
      (segmentOf dump record = .error fault ∨
        ∃ segment, segmentOf dump record = .ok segment ∧
          ∃ other ∈ kept.segments, other.range.overlaps segment.range = true ∧ other ≠ segment ∧
            fault = .corruptMemoryMap other.range segment.range) := by
  induction records generalizing memory previous with
  | nil => simp [assemble] at h
  | cons record rest ih =>
    cases hsegment : segmentOf dump record with
    | error fault' =>
      simp only [assemble, hsegment, bind, Except.bind, Except.error.injEq] at h
      exact ⟨[], record, rest, memory, rfl, Assembled.nil due.wellFormed, .inl (h ▸ hsegment)⟩
    | ok segment =>
      rcases assemble_cons dump memory previous rest hsegment with
        ⟨hlast, _, hstep⟩ | ⟨other, hother, hoverlaps, hne, hstep⟩ | ⟨hapart, hstep⟩
      · rw [hstep] at h
        have hmore : assemble dump memory previous rest = .error fault := by
          cases hrest : assemble dump memory previous rest with
          | error e =>
            rw [hrest] at h
            exact h
          | ok result => simp [hrest, Except.map] at h
        obtain ⟨front, last, back, kept, rfl, hfront, hfails⟩ := ih hmore due.tail
        have hmem := List.mem_of_getLast? (due.last.trans hlast)
        exact ⟨record :: front, last, back, kept, rfl, hfront.repeated hsegment hmem, hfails⟩
      · rw [hstep] at h
        refine ⟨[], record, rest, memory, rfl, Assembled.nil due.wellFormed,
          .inr ⟨segment, hsegment, other, ?_, hoverlaps, hne, (Except.error.inj h).symm⟩⟩
        exact List.mem_of_getLast? (due.last.trans hother)
      · obtain ⟨hdue, hsegments⟩ := due.push hsegment hapart
        rw [hstep] at h
        obtain ⟨front, last, back, kept, rfl, hfront, hfails⟩ := ih h hdue
        exact ⟨record :: front, last, back, kept, rfl, hfront.pushed hsegment hsegments, hfails⟩

/-- Of the records that are added each is either kept or reported as repeated. -/
theorem assemble_found {previous : Option Segment} {records : List MemoryRecord}
    {found : List Diagnostic} (h : assemble dump memory previous records = .ok (all, found)) :
    ∃ dropped : List Interval, found = dropped.map .duplicateMemory ∧
      dropped.Sublist (records.map MemoryRecord.range) ∧
      (memory.ranges ++ records.map MemoryRecord.range).Perm (all.ranges ++ dropped) := by
  induction records generalizing memory previous found with
  | nil =>
    simp only [assemble, Except.ok.injEq, Prod.mk.injEq] at h
    obtain ⟨rfl, rfl⟩ := h
    exact ⟨[], rfl, List.Sublist.refl _, List.Perm.refl _⟩
  | cons record rest ih =>
    obtain ⟨segment, hsegment, _⟩ := bind_eq_ok.1 h
    rcases assemble_cons dump memory previous rest hsegment with
      ⟨_, _, hstep⟩ | ⟨_, _, _, _, hstep⟩ | ⟨_, hstep⟩
    · rw [hstep] at h
      obtain ⟨⟨more, reports⟩, hmore, h⟩ := map_eq_ok.1 h
      obtain ⟨rfl, rfl⟩ := Prod.mk.inj h
      obtain ⟨dropped, rfl, hsublist, hperm⟩ := ih hmore
      refine ⟨record.range :: dropped, rfl, hsublist.cons_cons _, ?_⟩
      exact List.perm_middle.trans ((hperm.cons record.range).trans List.perm_middle.symm)
    · simp [hstep] at h
    · rw [hstep] at h
      obtain ⟨dropped, rfl, hsublist, hperm⟩ := ih h
      refine ⟨dropped, rfl, hsublist.cons _, ?_⟩
      have hranges : (memory.push segment).ranges = memory.ranges ++ [record.range] := by
        simp [ranges, push, (segmentOf_eq_ok_iff.1 hsegment).1]
      rw [hranges, List.append_assoc] at hperm
      exact hperm

theorem mem_sorted {records : List MemoryRecord} :
    record ∈ sorted records ↔ record ∈ records ∧ record.range.isEmpty = false := by
  simp [sorted, List.mem_mergeSort]

theorem pairwise_sorted (records : List MemoryRecord) :
    (sorted records).Pairwise fun r s => r.range.precedes s.range = true :=
  Interval.pairwise_mergeSort MemoryRecord.range _

theorem due_sorted (records : List MemoryRecord) : Due empty none (sorted records) :=
  ⟨WellFormed.empty, rfl, fun _ hr => (mem_sorted.1 hr).2, pairwise_sorted records, by simp⟩

/-- The store built from records holds exactly their segments. -/
theorem build_spec {records : List MemoryRecord} {found : List Diagnostic}
    (h : build records dump = .ok (memory, found)) :
    memory.WellFormed ∧
      (∀ r ∈ records, r.range.isEmpty = false →
        ∃ s ∈ memory.segments, segmentOf dump r = .ok s) ∧
      ∀ s ∈ memory.segments,
        ∃ r ∈ records, r.range.isEmpty = false ∧ segmentOf dump r = .ok s := by
  have h := assemble_spec h (due_sorted records)
  refine ⟨h.wellFormed, fun r hr hn => h.described r (mem_sorted.2 ⟨hr, hn⟩), ?_⟩
  intro s hs
  rcases h.recorded s hs with hs | ⟨r, hr, hrs⟩
  · simp [segments, empty] at hs
  · obtain ⟨hr, hn⟩ := mem_sorted.1 hr
    exact ⟨r, hr, hn, hrs⟩

/-- The segments of a store are those of the records that hold addresses. -/
theorem mem_segments_of_build {records : List MemoryRecord} {found : List Diagnostic}
    (h : build records dump = .ok (memory, found)) :
    s ∈ memory.segments ↔
      ∃ r ∈ records, r.range.isEmpty = false ∧ segmentOf dump r = .ok s := by
  obtain ⟨_, hdescribed, hheld⟩ := build_spec h
  refine ⟨hheld s, fun ⟨r, hr, hn, hrs⟩ => ?_⟩
  obtain ⟨t, ht, hrt⟩ := hdescribed r hr hn
  obtain rfl : s = t := Except.ok.inj (hrs.symm.trans hrt)
  exact ht

/-- Sorted records that have their bytes and do not overlap are all kept. -/
theorem assemble_ok {previous : Option Segment} {records : List MemoryRecord}
    (hseg : ∀ r ∈ records, ∃ s, segmentOf dump r = .ok s)
    (ho : records.Pairwise fun r s => r.range.overlaps s.range = false)
    (hp : ∀ t ∈ previous, ∀ r ∈ records, t.range.overlaps r.range = false) :
    ∃ all, assemble dump memory previous records = .ok (all, []) := by
  induction records generalizing memory previous with
  | nil => exact ⟨memory, rfl⟩
  | cons record rest ih =>
    obtain ⟨hfirst, ho⟩ := List.pairwise_cons.1 ho
    obtain ⟨segment, hsegment⟩ := hseg record (by simp)
    have hrange := (segmentOf_eq_ok_iff.1 hsegment).1
    have hapart : ∀ t ∈ previous, t.range.overlaps segment.range = false :=
      fun t ht => hrange ▸ hp t ht record (by simp)
    rcases assemble_cons dump memory previous rest hsegment with
      ⟨hlast, hoverlaps, _⟩ | ⟨other, hother, hoverlaps, _⟩ | ⟨_, hstep⟩
    · simp [hapart segment hlast] at hoverlaps
    · simp [hapart other hother] at hoverlaps
    · rw [hstep]
      refine ih (fun r hr => hseg r (by simp [hr])) ho fun t ht r hr => ?_
      obtain rfl : segment = t := by simpa using ht
      rw [hrange]
      exact hfirst r hr

/-- The stores that building from records and adding segments can lead to. -/
inductive Reachable : Captured → Prop
  | empty : Reachable empty
  | build {records : List MemoryRecord} {dump : Buffer} {memory : Captured}
      {found : List Diagnostic} (built : build records dump = .ok (memory, found)) :
      Reachable memory
  | add {memory : Captured} {new : Segment} (prior : Reachable memory)
      (filled : new.bytes.size = new.range.length) : Reachable (memory.add new)

theorem Reachable.wellFormed (h : Reachable memory) : memory.WellFormed := by
  induction h with
  | empty => exact WellFormed.empty
  | build built => exact (build_spec built).1
  | add _ filled ih => exact ih.add filled

end CrashDump.Captured

import CrashDump.Memory.Captured
import CrashDump.Proofs.Separation

/-!
# The store of captured memory

A well-formed store is looked up by address exactly, and its view changes in the plainest way: a
segment put in its place appears there, and every other byte stays what it was, although the bytes
themselves go to the end of the buffer.
-/
namespace CrashDump

namespace Segment

theorem contains_of_byteAt? {s : Segment} {a : Address} {b : UInt8} (h : s.byteAt? a = some b) :
    s.range.contains a = true := by
  unfold byteAt? at h
  split at h
  · assumption
  · simp at h

theorem byteAt?_of_not_contains {s : Segment} {a : Address} (h : s.range.contains a = false) :
    s.byteAt? a = none := by
  simp [byteAt?, h]

theorem byteAt?_eq_some_iff {s : Segment} {a : Address} {b : UInt8} :
    s.byteAt? a = some b ↔ s.range.contains a = true ∧
      s.bytes.bytes[a.toNat - s.range.start.toNat]? = some b := by
  simp [byteAt?]

theorem exists_byteAt? {s : Segment} {a : Address} (hs : s.bytes.size = s.range.length)
    (ha : s.range.contains a = true) : ∃ b, s.byteAt? a = some b := by
  have hc := Interval.contains_iff.1 ha
  have hlt : a.toNat - s.range.start.toNat < s.bytes.bytes.length := by
    rw [Buffer.length_bytes, hs, Interval.length]
    omega
  exact ⟨_, byteAt?_eq_some_iff.2 ⟨ha, List.getElem?_eq_getElem hlt⟩⟩

end Segment

namespace Captured

theorem mem_ranges {memory : Captured} {r : Interval} :
    r ∈ memory.ranges ↔ ∃ entry ∈ memory.table, entry.range = r := by
  simp [ranges]

theorem mem_segments {memory : Captured} {s : Segment} :
    s ∈ memory.segments ↔ ∃ entry ∈ memory.table, memory.segment entry = s := by
  simp [segments]

theorem map_range_segments (memory : Captured) :
    memory.segments.map Segment.range = memory.ranges := by
  simp [segments, ranges, Function.comp_def, segment]

/-- The entry where a split of the table lies. -/
theorem getElem?_of_split {memory : Captured} {front back : List CapturedRange}
    (ht : memory.table.toList = front ++ back) : memory.table[front.length]? = back.head? := by
  rw [← Array.getElem?_toList, ht, List.getElem?_append_right (Nat.le_refl _), Nat.sub_self,
    List.head?_eq_getElem?]

/-- Bytes that come after do not change an entry that has all of its own. -/
theorem segment_append {memory more : Captured} {bytes : Buffer} {entry : CapturedRange}
    (hd : more.data = memory.data ++ bytes)
    (he : entry.offset + entry.range.length ≤ memory.data.size) :
    more.segment entry = memory.segment entry := by
  have h1 : entry.offset - memory.data.size = 0 := by omega
  have h2 : entry.offset + entry.range.length - memory.data.size = 0 := by omega
  simp only [segment, hd, ByteArray.extract_append, h1, h2, ByteArray.extract_same,
    ByteArray.append_empty]

namespace WellFormed

theorem empty : WellFormed Captured.empty :=
  ⟨Interval.Separated.nil, by simp [Captured.empty]⟩

variable {memory : Captured}

/-- The table splits at an address, and the search finds where. -/
theorem exists_boundary (h : memory.WellFormed) (a : Address) :
    ∃ front back, memory.table.toList = front ++ back ∧
      Search.boundary (fun entry => decide (entry.range.stop ≤ a)) memory.table = front.length ∧
      (∀ entry ∈ front, entry.range.stop ≤ a) ∧ ∀ entry ∈ back, a < entry.range.stop := by
  obtain ⟨front, back, ht, hi, hf, hb⟩ := Interval.Separated.exists_boundary h.separated a
  rw [Array.toArray_toList] at hi
  exact ⟨front, back, ht, hi, hf, hb⟩

theorem find?_eq_some_iff (h : memory.WellFormed) {a : Address} {entry : CapturedRange} :
    memory.find? a = some entry ↔ entry ∈ memory.table ∧ entry.range.contains a = true := by
  obtain ⟨front, back, ht, hi, hf, hb⟩ := h.exists_boundary a
  have hsep : Interval.Separated ((front ++ back).map CapturedRange.range) := ht ▸ h.separated
  have hnot : ∀ e ∈ front, ¬ e.range.contains a = true := by
    intro e he hc
    have hle := hf e he
    rw [Address.le_def] at hle
    rw [Interval.contains_iff] at hc
    omega
  simp only [find?, hi, getElem?_of_split ht, ← Array.mem_toList_iff, ht, List.mem_append,
    Option.filter_eq_some_iff]
  constructor
  · rintro ⟨he, hc⟩
    exact ⟨.inr (List.mem_of_mem_head? he), hc⟩
  · rintro ⟨he | he, hc⟩
    · exact absurd hc (hnot entry he)
    · refine ⟨?_, hc⟩
      cases back with
      | nil => simp at he
      | cons x rest =>
        rw [List.map_append] at hsep
        have hsep := (Interval.Separated.append_iff.1 hsep).2.1
        have hx := hsep.eq_head (hb x (by simp)) he
          (Address.le_def.2 (Interval.contains_iff.1 hc).1)
        simp [hx]

theorem find?_eq_none_iff (h : memory.WellFormed) {a : Address} :
    memory.find? a = none ↔ ∀ r ∈ memory.ranges, r.contains a = false := by
  simp only [Option.eq_none_iff_forall_ne_some, ne_eq, h.find?_eq_some_iff, mem_ranges]
  constructor
  · rintro hall r ⟨entry, he, rfl⟩
    exact Bool.eq_false_iff.2 fun hc => hall entry ⟨he, hc⟩
  · rintro hall entry ⟨he, hc⟩
    simp [hall _ ⟨entry, he, rfl⟩] at hc

/-- Each segment of the view has a byte for each of its addresses. -/
theorem size_bytes (h : memory.WellFormed) {s : Segment} (hs : s ∈ memory.segments) :
    s.bytes.size = s.range.length := by
  obtain ⟨entry, he, rfl⟩ := mem_segments.1 hs
  have := h.filled entry he
  simp only [segment, ByteArray.size_extract]
  omega

theorem separated_segments (h : memory.WellFormed) :
    Interval.Separated (memory.segments.map Segment.range) :=
  map_range_segments memory ▸ h.separated

/-- Only one segment holds an address. -/
theorem eq_of_contains (h : memory.WellFormed) {s t : Segment} {a : Address}
    (hs : s ∈ memory.segments) (ht : t ∈ memory.segments) (hsa : s.range.contains a = true)
    (hta : t.range.contains a = true) : s = t :=
  h.separated_segments.eq_of_contains hs ht hsa hta

theorem byteAt?_eq (h : memory.WellFormed) {s : Segment} {a : Address} (hs : s ∈ memory.segments)
    (ha : s.range.contains a = true) : memory.byteAt? a = s.byteAt? a := by
  obtain ⟨b, hb⟩ := Segment.exists_byteAt? (h.size_bytes hs) ha
  cases hm : memory.byteAt? a with
  | none =>
    have := List.findSome?_eq_none_iff.1 hm s hs
    rw [this] at hb
    simp at hb
  | some c =>
    obtain ⟨t, ht, htc⟩ := List.exists_of_findSome?_eq_some hm
    rw [← h.eq_of_contains ht hs (Segment.contains_of_byteAt? htc) ha, htc]

/-- A byte is held exactly for the addresses of the listed intervals. -/
theorem byteAt?_isSome_iff (h : memory.WellFormed) {a : Address} :
    (memory.byteAt? a).isSome = true ↔ ∃ r ∈ memory.ranges, r.contains a = true := by
  rw [← map_range_segments]
  constructor
  · intro hm
    obtain ⟨b, hb⟩ := Option.isSome_iff_exists.1 hm
    obtain ⟨s, hs, hsb⟩ := List.exists_of_findSome?_eq_some hb
    exact ⟨s.range, List.mem_map_of_mem hs, Segment.contains_of_byteAt? hsb⟩
  · rintro ⟨r, hr, ha⟩
    obtain ⟨s, hs, rfl⟩ := List.mem_map.1 hr
    obtain ⟨b, hb⟩ := Segment.exists_byteAt? (h.size_bytes hs) ha
    rw [h.byteAt?_eq hs ha, hb]
    rfl

theorem byteAt?_eq_none_iff (h : memory.WellFormed) {a : Address} :
    memory.byteAt? a = none ↔ ∀ r ∈ memory.ranges, r.contains a = false := by
  rw [← Option.not_isSome_iff_eq_none, h.byteAt?_isSome_iff]
  simp

/-- A segment put between those that end before it and those that start after it. Its bytes go to
the end of the buffer, so that no other segment changes. -/
theorem splice (h : memory.WellFormed) {more : Captured} {front back : List CapturedRange}
    {new : Segment} (hn : new.range.isEmpty = false) (hs : new.bytes.size = new.range.length)
    (ht : memory.table.toList = front ++ back)
    (hf : ∀ entry ∈ front, entry.range.stop ≤ new.range.start)
    (hb : ∀ entry ∈ back, new.range.stop ≤ entry.range.start)
    (hm : more.table.toList = front ++ ⟨new.range, memory.data.size⟩ :: back)
    (hd : more.data = memory.data ++ new.bytes) :
    more.WellFormed ∧
      more.segments = front.map memory.segment ++ new :: back.map memory.segment := by
  have hsize : more.data.size = memory.data.size + new.range.length := by
    rw [hd, ByteArray.size_append, hs]
  have hfill : ∀ entry ∈ front ++ back,
      entry.offset + entry.range.length ≤ memory.data.size := fun entry he =>
    h.filled entry (Array.mem_toList_iff.1 (ht ▸ he))
  have hold : ∀ entry ∈ front ++ back, more.segment entry = memory.segment entry :=
    fun entry he => segment_append hd (hfill entry he)
  have hnew : more.segment ⟨new.range, memory.data.size⟩ = new := by
    have : memory.data.size + new.range.length = memory.data.size + new.bytes.size := by rw [hs]
    simp only [segment, hd, this, ByteArray.extract_append_eq_right rfl rfl]
  refine ⟨⟨?_, fun entry he => ?_⟩, ?_⟩
  · have hsep : Interval.Separated ((front ++ back).map CapturedRange.range) := ht ▸ h.separated
    rw [List.map_append, Interval.Separated.append_iff] at hsep
    obtain ⟨hsf, hsb, hc⟩ := hsep
    simp only [ranges, hm, List.map_append, List.map_cons, Interval.Separated.append_iff,
      Interval.Separated.cons_iff, List.mem_cons, List.mem_map, forall_exists_index, and_imp,
      forall_apply_eq_imp_iff₂] at hc ⊢
    refine ⟨hsf, ⟨hn, hb, hsb⟩, fun e he s hs' => ?_⟩
    rcases hs' with rfl | ⟨f, hf', rfl⟩
    · exact hf e he
    · exact hc e he f hf'
  · rw [← Array.mem_toList_iff, hm, List.mem_append, List.mem_cons] at he
    rw [hsize]
    rcases he with he | rfl | he
    · have := hfill entry (List.mem_append_left _ he)
      omega
    · exact Nat.le_refl _
    · have := hfill entry (List.mem_append_right _ he)
      omega
  · rw [segments, hm, List.map_append, List.map_cons, hnew]
    congr 1
    · exact List.map_congr_left fun e he => hold e (List.mem_append_left _ he)
    · congr 1
      exact List.map_congr_left fun e he => hold e (List.mem_append_right _ he)

end WellFormed
end Captured
end CrashDump

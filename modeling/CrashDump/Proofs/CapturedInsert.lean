import CrashDump.Proofs.CapturedStore

/-!
# Adding to captured memory

A segment that holds addresses is refused exactly if it overlaps one that is held; otherwise it
appears in its place in the view and nothing else changes there. Every store that building and
adding can lead to is therefore well formed.
-/
namespace CrashDump.Captured

variable {memory more : Captured} {new : Segment}

private theorem insertIdx_length_append {α : Type} (front back : List α) (x : α) :
    (front ++ back).insertIdx front.length x = front ++ x :: back := by
  induction front with
  | nil => rfl
  | cons y front ih => simp [ih]

theorem insert?_of_isEmpty (hn : new.range.isEmpty = true) : memory.insert? new = some memory := by
  simp [insert?, hn]

theorem add_of_none (h : memory.insert? new = none) : memory.add new = memory := by
  simp [add, h]

theorem add_of_some (h : memory.insert? new = some more) : memory.add new = more := by
  simp [add, h]

/-- A segment put among others leaves the bytes at all other addresses alone. -/
theorem byteAt?_of_view {front back : List Segment} {a : Address}
    (hv : memory.segments = front ++ back) (hm : more.segments = front ++ new :: back)
    (ha : new.range.contains a = false) : more.byteAt? a = memory.byteAt? a := by
  unfold byteAt?
  rw [hv, hm, List.findSome?_append, List.findSome?_append, List.findSome?_cons,
    Segment.byteAt?_of_not_contains ha]

namespace WellFormed

/-- What adding a segment that holds addresses can do. -/
theorem insert?_cases (h : memory.WellFormed) (hn : new.range.isEmpty = false)
    (hs : new.bytes.size = new.range.length) :
    (memory.insert? new = none ∧ ∃ r ∈ memory.ranges, r.overlaps new.range = true) ∨
      ∃ more front back, memory.insert? new = some more ∧ more.WellFormed ∧
        memory.segments = front ++ back ∧ more.segments = front ++ new :: back ∧
        ∀ r ∈ memory.ranges, r.overlaps new.range = false := by
  obtain ⟨front, back, ht, hi, hf, hb⟩ := h.exists_boundary new.range.start
  have hsep : Interval.Separated ((front ++ back).map CapturedRange.range) := ht ▸ h.separated
  have hget := getElem?_of_split ht
  have hsize : memory.table.size = front.length + back.length := by
    rw [← Array.length_toList, ht, List.length_append]
  by_cases hover : back.head?.any fun next => next.range.overlaps new.range
  · left
    refine ⟨by simp [insert?, hn, hi, hget, hover], ?_⟩
    obtain ⟨next, hnext, ho⟩ := (Option.any_eq_true ..).1 hover
    have hmem : next ∈ front ++ back := List.mem_append_right _ (List.mem_of_mem_head? hnext)
    exact ⟨next.range, mem_ranges.2 ⟨next, Array.mem_toList_iff.1 (ht ▸ hmem), rfl⟩, ho⟩
  · right
    have hafter : ∀ entry ∈ back, new.range.stop ≤ entry.range.start := by
      rw [List.map_append] at hsep
      have hback := (Interval.Separated.append_iff.1 hsep).2.1
      refine hback.stop_le_start hb fun next hnext => ?_
      rw [Option.mem_def] at hnext
      simpa [hnext] using hover
    have hview : memory.segments = front.map memory.segment ++ back.map memory.segment := by
      rw [segments, ht, List.map_append]
    let after : Captured := ⟨memory.table.insertIdx front.length ⟨new.range, memory.data.size⟩
      (by omega), memory.data ++ new.bytes⟩
    have htable : after.table.toList = front ++ ⟨new.range, memory.data.size⟩ :: back := by
      simp only [after, Array.toList_insertIdx, ht]
      exact insertIdx_length_append ..
    obtain ⟨hwell, hsegments⟩ := h.splice hn hs ht hf hafter htable rfl
    refine ⟨after, _, _, ?_, hwell, hview, hsegments, ?_⟩
    · simp only [insert?, hn, hi, hget, hover, after]
      simp
    · intro r hr
      obtain ⟨entry, he, rfl⟩ := mem_ranges.1 hr
      rw [← Array.mem_toList_iff, ht, List.mem_append] at he
      rw [← Bool.not_eq_true, Interval.overlaps_iff]
      rcases he with he | he
      · have hle := hf entry he
        rw [Address.le_def] at hle
        omega
      · have hle := hafter entry he
        rw [Address.le_def] at hle
        omega

/-- Adding a segment with a byte for each of its addresses keeps a store well formed. -/
theorem add (h : memory.WellFormed) (hs : new.bytes.size = new.range.length) :
    (memory.add new).WellFormed := by
  by_cases hn : new.range.isEmpty = true
  · rw [add_of_some (insert?_of_isEmpty hn)]
    exact h
  · rw [Bool.not_eq_true] at hn
    rcases h.insert?_cases hn hs with ⟨hnone, _⟩ | ⟨more, _, _, hsome, hmore, _⟩
    · rw [add_of_none hnone]
      exact h
    · rw [add_of_some hsome]
      exact hmore

/-- A segment that starts where all others have ended goes to the end of the view. -/
theorem push (h : memory.WellFormed) (hn : new.range.isEmpty = false)
    (hs : new.bytes.size = new.range.length)
    (hlast : ∀ r ∈ memory.ranges, r.stop ≤ new.range.start) :
    (memory.push new).WellFormed ∧ (memory.push new).segments = memory.segments ++ [new] := by
  have hf : ∀ entry ∈ memory.table.toList, entry.range.stop ≤ new.range.start := by
    intro entry he
    exact hlast entry.range (mem_ranges.2 ⟨entry, Array.mem_toList_iff.1 he, rfl⟩)
  have ht : memory.table.toList = memory.table.toList ++ [] := (List.append_nil _).symm
  have hm : (memory.push new).table.toList =
      memory.table.toList ++ ⟨new.range, memory.data.size⟩ :: [] := by simp [Captured.push]
  exact h.splice hn hs ht hf (by simp) hm rfl

end WellFormed
end CrashDump.Captured

import CrashDump.Proofs.CapturedStore

/-!
# Reading captured memory

A read gives the longest run of held bytes from its address on that is not longer than asked for.
It says so through `Reads`, which determines bytes and end: whatever two stores with the same bytes
look like inside, they are read alike.
-/
namespace CrashDump

namespace Captured

/-- The held byte `i` places after an address; there is none beyond the highest address. -/
def byteAfter? (memory : Captured) (a : Address) (i : Nat) : Option UInt8 :=
  (a.add? i).bind memory.byteAt?

/-- What a read of up to `length` bytes from an address on gives: held bytes, one after another, up
to an address that is not held if they are fewer than asked for. -/
structure Reads (memory : Captured) (a : Address) (length : Nat) (bytes : Buffer)
    (stop : Address) : Prop where
  size_le : bytes.size ≤ length
  stop_eq : a.add? bytes.size = some stop
  held : ∀ i < bytes.size, memory.byteAfter? a i = bytes.bytes[i]?
  maximal : bytes.size < length → memory.byteAt? stop = none

theorem byteAfter?_zero (memory : Captured) (a : Address) :
    memory.byteAfter? a 0 = memory.byteAt? a := by
  have h : a.add? 0 = some a := Address.add?_eq_some_iff.2 (Nat.add_zero _).symm
  simp [byteAfter?, h]

theorem byteAfter?_add {memory : Captured} {a b : Address} {m : Nat} (h : a.add? m = some b)
    (i : Nat) : memory.byteAfter? a (m + i) = memory.byteAfter? b i := by
  rw [Address.add?_eq_some_iff] at h
  have hadd : a.add? (m + i) = b.add? i := by
    simp only [Address.add?, h, Nat.add_assoc]
  rw [byteAfter?, byteAfter?, hadd]

namespace Reads

variable {memory : Captured} {a next stop stop' : Address} {length : Nat} {x y : Buffer}

theorem nothing (a : Address) (h : length = 0 ∨ memory.byteAt? a = none) :
    memory.Reads a length ByteArray.empty a := by
  refine ⟨Nat.zero_le _, ?_, ?_, ?_⟩
  · exact Address.add?_eq_some_iff.2 (Nat.add_zero _).symm
  · intro i hi
    exact absurd hi (Nat.not_lt_zero i)
  · intro hlt
    rcases h with rfl | h
    · exact absurd hlt (Nat.lt_irrefl 0)
    · exact h

/-- Held bytes followed by a read from where they end. -/
theorem append {count : Nat} (hsize : x.size = count)
    (hx : ∀ i < count, memory.byteAfter? a i = x.bytes[i]?) (hle : count ≤ length)
    (hnext : a.add? count = some next) (h : memory.Reads next (length - count) y stop) :
    memory.Reads a length (x ++ y) stop := by
  subst hsize
  have hy := h.size_le
  refine ⟨?_, ?_, ?_, ?_⟩
  · rw [ByteArray.size_append]
    omega
  · have hstop := h.stop_eq
    rw [Address.add?_eq_some_iff] at hstop hnext ⊢
    rw [ByteArray.size_append]
    omega
  · intro i hi
    rw [ByteArray.size_append] at hi
    rw [Buffer.bytes_append]
    by_cases hlt : i < x.size
    · rw [hx i hlt, List.getElem?_append_left (by rwa [Buffer.length_bytes])]
    · have hge : x.size ≤ i := Nat.le_of_not_lt hlt
      rw [List.getElem?_append_right (by rwa [Buffer.length_bytes]), Buffer.length_bytes,
        ← h.held (i - x.size) (by omega), ← byteAfter?_add hnext, Nat.add_sub_cancel' hge]
  · intro hlt
    rw [ByteArray.size_append] at hlt
    exact h.maximal (by omega)

theorem isSome_byteAfter? (h : memory.Reads a length x stop) {i : Nat} (hi : i < x.size) :
    (memory.byteAfter? a i).isSome = true := by
  rw [h.held i hi, List.getElem?_eq_getElem (by rwa [Buffer.length_bytes])]
  rfl

theorem byteAfter?_size (h : memory.Reads a length x stop) (hlt : x.size < length) :
    memory.byteAfter? a x.size = none := by
  rw [byteAfter?, h.stop_eq]
  exact h.maximal hlt

theorem size_le_size (h : memory.Reads a length x stop) (h' : memory.Reads a length y stop') :
    y.size ≤ x.size := by
  by_contra hlt
  rw [Nat.not_le] at hlt
  have hnone := h.byteAfter?_size (Nat.lt_of_lt_of_le hlt h'.size_le)
  have hsome := h'.isSome_byteAfter? hlt
  rw [hnone] at hsome
  exact Bool.noConfusion hsome

/-- There is only one answer to a read. -/
theorem unique (h : memory.Reads a length x stop) (h' : memory.Reads a length y stop') :
    x = y ∧ stop = stop' := by
  have hsize : x.size = y.size := Nat.le_antisymm (h'.size_le_size h) (h.size_le_size h')
  constructor
  · apply Buffer.ext_bytes
    apply List.ext_getElem?
    intro i
    by_cases hi : i < x.size
    · rw [← h.held i hi, ← h'.held i (hsize ▸ hi)]
    · rw [List.getElem?_eq_none (by rw [Buffer.length_bytes]; omega),
        List.getElem?_eq_none (by rw [Buffer.length_bytes]; omega)]
  · have hs := h.stop_eq
    rw [hsize, h'.stop_eq, Option.some.injEq] at hs
    exact hs.symm

/-- The number of bytes read is the largest for which all of them are held. -/
theorem isGreatest (h : memory.Reads a length x stop) :
    IsGreatest {n | n ≤ length ∧ ∀ i < n, (memory.byteAfter? a i).isSome = true} x.size := by
  refine ⟨⟨h.size_le, fun i hi => h.isSome_byteAfter? hi⟩, ?_⟩
  rintro n ⟨hn, hall⟩
  by_contra hlt
  rw [Nat.not_le] at hlt
  have hsome := hall x.size hlt
  rw [h.byteAfter?_size (Nat.lt_of_lt_of_le hlt hn)] at hsome
  exact Bool.noConfusion hsome

/-- A complete read in two halves. -/
theorem split {m n : Nat} (h : memory.Reads a (m + n) x stop) (hx : x.size = m + n) :
    ∃ middle, a.add? m = some middle ∧ memory.Reads a m (x.extract 0 m) middle ∧
      memory.Reads middle n (x.extract m (m + n)) stop := by
  have hstop := Address.add?_eq_some_iff.1 h.stop_eq
  obtain ⟨middle, hm⟩ : ∃ middle, a.add? m = some middle :=
    Address.exists_add? (b := stop) (by omega)
  have hfirst : (x.extract 0 m).size = m := by
    rw [ByteArray.size_extract]
    omega
  have hsecond : (x.extract m (m + n)).size = n := by
    rw [ByteArray.size_extract]
    omega
  refine ⟨middle, hm, ⟨?_, ?_, ?_, ?_⟩, ?_, ?_, ?_, ?_⟩
  · exact Nat.le_of_eq hfirst
  · rw [hfirst, hm]
  · intro i hi
    rw [hfirst] at hi
    rw [h.held i (by omega), Buffer.bytes_extract, List.drop_zero, Nat.sub_zero,
      List.getElem?_take_of_lt hi]
  · intro hlt
    omega
  · exact Nat.le_of_eq hsecond
  · rw [Address.add?_eq_some_iff] at hm ⊢
    omega
  · intro i hi
    rw [hsecond] at hi
    rw [← byteAfter?_add hm, h.held (m + i) (by omega), Buffer.bytes_extract,
      List.getElem?_take_of_lt (by omega), List.getElem?_drop]
  · intro hlt
    omega

end Reads

variable {memory : Captured}

/-- The bytes of a segment follow one another in memory. -/
theorem WellFormed.byteAfter?_eq (h : memory.WellFormed) {s : Segment} {a : Address} {i : Nat}
    (hs : s ∈ memory.segments) (ha : s.range.contains a = true)
    (hi : a.toNat + i < s.range.stop.toNat) :
    memory.byteAfter? a i = s.bytes.bytes[a.toNat - s.range.start.toNat + i]? := by
  obtain ⟨b, hb⟩ := Address.exists_add? (Nat.le_of_lt hi)
  have hbn := Address.add?_eq_some_iff.1 hb
  rw [Interval.contains_iff] at ha
  have hc : s.range.contains b = true := Interval.contains_iff.2 (by omega)
  have hplace : b.toNat - s.range.start.toNat = a.toNat - s.range.start.toNat + i := by omega
  rw [byteAfter?, hb, Option.bind_some, h.byteAt?_eq hs hc, Segment.byteAt?, if_pos hc, hplace]

/-- The bytes of an entry from an address in it on. -/
theorem WellFormed.byteAfter?_extract (h : memory.WellFormed) {entry : CapturedRange}
    {a : Address} {start count : Nat} (he : entry ∈ memory.table)
    (ha : entry.range.contains a = true) (hc : a.toNat + count ≤ entry.range.stop.toNat)
    (hs : start = entry.offset + (a.toNat - entry.range.start.toNat)) :
    (memory.data.extract start (start + count)).size = count ∧
      ∀ i < count, memory.byteAfter? a i =
        (Buffer.bytes (memory.data.extract start (start + count)))[i]? := by
  have hfill := h.filled entry he
  have hstart := (Interval.contains_iff.1 ha).1
  rw [Interval.length] at hfill
  constructor
  · rw [ByteArray.size_extract]
    omega
  · intro i hi
    have hsegment : memory.segment entry ∈ memory.segments := mem_segments.2 ⟨entry, he, rfl⟩
    have hlt : a.toNat + i < (memory.segment entry).range.stop.toNat :=
      Nat.lt_of_lt_of_le (Nat.add_lt_add_left hi _) hc
    rw [h.byteAfter?_eq hsegment ha hlt]
    simp only [segment, Buffer.bytes_extract, List.getElem?_take, List.getElem?_drop,
      Interval.length]
    rw [if_pos (by omega), if_pos (by omega), hs, Nat.add_assoc]

theorem WellFormed.reads (h : memory.WellFormed) (a : Address) (length : Nat) :
    memory.Reads a length (memory.read a length).1 (memory.read a length).2 := by
  fun_induction memory.read a length with
  | case1 a => exact Reads.nothing a (.inl rfl)
  | case2 a length hl hnone =>
    exact Reads.nothing a (.inr (h.byteAt?_eq_none_iff.2 (h.find?_eq_none_iff.1 hnone)))
  | case3 a length hl entry hentry start count bytes hwrap =>
    -- An entry ends at an address, so the address after its bytes exists.
    have hc := Interval.contains_iff.1 (contains_of_find? hentry)
    have hend : a.toNat + count ≤ entry.range.stop.toNat := by omega
    obtain ⟨next, hnext⟩ := Address.exists_add? hend
    simp [hnext] at hwrap
  | case4 a length hl entry hentry start count bytes next hnext more stop hread ih =>
    obtain ⟨he, hc⟩ := h.find?_eq_some_iff.1 hentry
    have hca := Interval.contains_iff.1 hc
    have hend : a.toNat + count ≤ entry.range.stop.toNat := by omega
    obtain ⟨hsize, hheld⟩ := h.byteAfter?_extract he hc hend rfl
    rw [hread] at ih
    exact Reads.append hsize hheld (Nat.min_le_right ..) hnext ih

/-- A segment is read whole. -/
theorem WellFormed.read_segment (h : memory.WellFormed) {s : Segment} (hs : s ∈ memory.segments) :
    memory.read s.range.start s.range.length = (s.bytes, s.range.stop) := by
  have hsize := h.size_bytes hs
  have hn := h.separated_segments.nonempty s.range (List.mem_map_of_mem hs)
  have hlt := Interval.isEmpty_eq_false_iff.1 hn
  have hlength : s.range.start.toNat + s.range.length = s.range.stop.toNat := by
    rw [Interval.length]
    omega
  have hreads : memory.Reads s.range.start s.range.length s.bytes s.range.stop := by
    refine ⟨?_, ?_, ?_, ?_⟩
    · exact Nat.le_of_eq hsize
    · rw [hsize]
      exact Address.add?_eq_some_iff.2 hlength.symm
    · intro i hi
      rw [h.byteAfter?_eq hs (Interval.contains_start hn) (by omega), Nat.sub_self, Nat.zero_add]
    · intro hless
      omega
  obtain ⟨hbytes, hstop⟩ := (h.reads s.range.start s.range.length).unique hreads
  exact Prod.ext hbytes hstop

end Captured
end CrashDump

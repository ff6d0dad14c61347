import CrashDump.Proofs.CapturedBuild
import CrashDump.Proofs.CapturedRead

/-!
# Laws of captured memory

The invariant of every store that can be reached, what adding a segment does to it, and that the
order in which segments come is of no account: stores that hold the same segments give the same
answers, wherever in the buffer the bytes stand.
-/
namespace CrashDump.Captured

variable {memory more : Captured} {new : Segment} {dump : Buffer}

theorem WellFormed.covers_iff (h : memory.WellFormed) {range : Interval} :
    memory.covers range = true ↔
      ∃ r ∈ memory.ranges, r.contains range.start = true ∧ range.stop ≤ r.stop := by
  unfold covers
  rw [Option.any_eq_true]
  constructor
  · rintro ⟨entry, hfind, hle⟩
    obtain ⟨he, hc⟩ := h.find?_eq_some_iff.1 hfind
    exact ⟨entry.range, mem_ranges.2 ⟨entry, he, rfl⟩, hc, by simpa using hle⟩
  · rintro ⟨r, hr, hc, hle⟩
    obtain ⟨entry, he, rfl⟩ := mem_ranges.1 hr
    exact ⟨entry, h.find?_eq_some_iff.2 ⟨he, hc⟩, by simpa using hle⟩

/-- Two stores that no question tells apart. -/
structure Agree (m n : Captured) : Prop where
  ranges : m.ranges = n.ranges
  size : m.table.size = n.table.size
  covers : ∀ range, m.covers range = n.covers range
  read : ∀ a length, m.read a length = n.read a length
  word : ∀ width a, m.word width a = n.word width a

theorem WellFormed.agree {m n : Captured} (hm : m.WellFormed) (hn : n.WellFormed)
    (h : m.segments = n.segments) : Agree m n := by
  have hranges : m.ranges = n.ranges := by
    rw [← map_range_segments, ← map_range_segments, h]
  have hbyte : m.byteAt? = n.byteAt? := by
    funext a
    rw [byteAt?, byteAt?, h]
  have hread : ∀ a length, m.read a length = n.read a length := by
    intro a length
    have hreads := hn.reads a length
    have hafter : n.byteAfter? = m.byteAfter? := by
      funext a i
      rw [byteAfter?, byteAfter?, hbyte]
    have hsame : m.Reads a length (n.read a length).1 (n.read a length).2 :=
      ⟨hreads.size_le, hreads.stop_eq, hafter ▸ hreads.held, hbyte ▸ hreads.maximal⟩
    obtain ⟨hb, hs⟩ := (hm.reads a length).unique hsame
    exact Prod.ext hb hs
  refine ⟨hranges, ?_, ?_, hread, ?_⟩
  · have hlength := congrArg List.length h
    simpa [segments] using hlength
  · intro range
    rw [Bool.eq_iff_iff, hm.covers_iff, hn.covers_iff, hranges]
  · intro width a
    rw [word, word, hread]

theorem WellFormed.ascending_segments (h : memory.WellFormed) :
    memory.segments.Pairwise fun s t => s.range.start < t.range.start := by
  have hsep := h.separated_segments.ascending
  rw [List.pairwise_map] at hsep
  exact hsep

theorem WellFormed.nodup (h : memory.WellFormed) : memory.segments.Nodup := by
  refine h.ascending_segments.imp ?_
  rintro s t hlt rfl
  rw [Address.lt_def] at hlt
  exact Nat.lt_irrefl _ hlt

/-- The view of a store is determined by which segments are in it. -/
theorem WellFormed.segments_eq {m n : Captured} (hm : m.WellFormed) (hn : n.WellFormed)
    (h : ∀ s, s ∈ m.segments ↔ s ∈ n.segments) : m.segments = n.segments := by
  have hperm := (List.perm_ext_iff_of_nodup hm.nodup hn.nodup).2 h
  refine hperm.eq_of_pairwise ?_ hm.ascending_segments hn.ascending_segments
  intro s t _ _ hst hts
  rw [Address.lt_def] at hst hts
  omega

/-- A segment that shares no address with what is held is added. -/
theorem WellFormed.insert?_of_apart (h : memory.WellFormed)
    (hs : new.bytes.size = new.range.length) (ha : ∀ r ∈ memory.ranges, r.Apart new.range) :
    ∃ more, memory.insert? new = some more ∧ more.WellFormed ∧
      ∀ s, s ∈ more.segments ↔ s ∈ memory.segments ∨ s = new ∧ new.range.isEmpty = false := by
  cases hn : new.range.isEmpty with
  | true => exact ⟨memory, insert?_of_isEmpty hn, h, by simp⟩
  | false =>
    rcases h.insert?_cases hn hs with
      ⟨_, r, hr, ho⟩ | ⟨more, front, back, hmore, hw, hv, hv', _⟩
    · rw [(Interval.apart_iff (h.separated.nonempty r hr) hn).1 (ha r hr)] at ho
      exact Bool.noConfusion ho
    · refine ⟨more, hmore, hw, fun s => ?_⟩
      rw [hv, hv', List.mem_append, List.mem_append, List.mem_cons]
      constructor
      · rintro (hs | rfl | hs)
        · exact .inl (.inl hs)
        · exact .inr ⟨rfl, rfl⟩
        · exact .inl (.inr hs)
      · rintro ((hs | hs) | ⟨rfl, _⟩)
        · exact .inl hs
        · exact .inr (.inr hs)
        · exact .inr (.inl rfl)

/-- Segments that share no address can all be added, one after another. -/
theorem WellFormed.foldlM_insert? (h : memory.WellFormed) {segments : List Segment}
    (hs : ∀ s ∈ segments, s.bytes.size = s.range.length)
    (ha : segments.Pairwise fun s t => s.range.Apart t.range)
    (hm : ∀ r ∈ memory.ranges, ∀ s ∈ segments, r.Apart s.range) :
    ∃ all, segments.foldlM insert? memory = some all ∧ all.WellFormed ∧
      ∀ s, s ∈ all.segments ↔
        s ∈ memory.segments ∨ s ∈ segments ∧ s.range.isEmpty = false := by
  induction segments generalizing memory with
  | nil => exact ⟨memory, rfl, h, by simp⟩
  | cons new rest ih =>
    obtain ⟨hfirst, ha⟩ := List.pairwise_cons.1 ha
    obtain ⟨more, hmore, hw, hmem⟩ :=
      h.insert?_of_apart (hs new (by simp)) fun r hr => hm r hr new (by simp)
    have hrest : ∀ r ∈ more.ranges, ∀ s ∈ rest, r.Apart s.range := by
      intro r hr s hsr
      rw [← map_range_segments] at hr
      obtain ⟨t, ht, rfl⟩ := List.mem_map.1 hr
      rcases (hmem t).1 ht with ht | ⟨rfl, _⟩
      · have hr : t.range ∈ memory.ranges := by
          rw [← map_range_segments]
          exact List.mem_map_of_mem ht
        exact hm t.range hr s (by simp [hsr])
      · exact hfirst s hsr
    obtain ⟨all, hall, hw', hmem'⟩ := ih hw (fun s hs' => hs s (by simp [hs'])) ha hrest
    refine ⟨all, ?_, hw', fun s => ?_⟩
    · rw [List.foldlM_cons, hmore]
      exact hall
    · rw [hmem', hmem, List.mem_cons]
      constructor
      · rintro ((hs | ⟨rfl, hn⟩) | ⟨hs, hn⟩)
        · exact .inl hs
        · exact .inr ⟨.inl rfl, hn⟩
        · exact .inr ⟨.inr hs, hn⟩
      · rintro (hs | ⟨rfl | hs, hn⟩)
        · exact .inl (.inl hs)
        · exact .inl (.inr ⟨rfl, hn⟩)
        · exact .inr ⟨hs, hn⟩

/-- What an attempt to add a segment does. -/
structure Adds (memory : Captured) (new : Segment) : Prop where
  accepted : (memory.insert? new).isSome = true ↔
    new.range.isEmpty = true ∨ ∀ r ∈ memory.ranges, r.Apart new.range
  refused : memory.insert? new = none → memory.add new = memory
  nothing : new.range.isEmpty = true → memory.add new = memory
  listed : new.range.isEmpty = false → ∀ more, memory.insert? new = some more →
    more.ranges.Perm (new.range :: memory.ranges)
  held : new.range.isEmpty = false → ∀ more, memory.insert? new = some more → ∀ a,
    more.byteAt? a = if new.range.contains a then new.byteAt? a else memory.byteAt? a

theorem WellFormed.adds (h : memory.WellFormed) (hs : new.bytes.size = new.range.length) :
    memory.Adds new := by
  refine ⟨?_, add_of_none, fun hn => add_of_some (insert?_of_isEmpty hn), ?_, ?_⟩
  · cases hn : new.range.isEmpty with
    | true => simp [insert?_of_isEmpty hn]
    | false =>
      have hiff : (∀ r ∈ memory.ranges, r.Apart new.range) ↔
          ∀ r ∈ memory.ranges, r.overlaps new.range = false :=
        forall₂_congr fun r hr => Interval.apart_iff (h.separated.nonempty r hr) hn
      rw [hiff]
      rcases h.insert?_cases hn hs with ⟨hnone, r, hr, ho⟩ | ⟨more, _, _, hmore, _, _, _, hno⟩
      · simp only [hnone, Option.isSome_none, Bool.false_eq_true, false_or, false_iff]
        intro hall
        rw [hall r hr] at ho
        exact Bool.noConfusion ho
      · rw [hmore]
        exact ⟨fun _ => .inr hno, fun _ => rfl⟩
  all_goals
    intro hn more hmore
    rcases h.insert?_cases hn hs with ⟨hnone, _⟩ | ⟨more', front, back, hsome, hw, hv, hv', _⟩
    · simp [hnone] at hmore
    obtain rfl : more' = more := by simpa [hsome] using hmore
  · rw [← map_range_segments, ← map_range_segments, hv, hv', List.map_append, List.map_append]
    exact List.perm_middle
  · intro a
    by_cases ha : new.range.contains a = true
    · rw [if_pos ha]
      exact hw.byteAt?_eq (by simp [hv']) ha
    · rw [if_neg ha]
      exact byteAt?_of_view hv hv' (Bool.eq_false_iff.2 ha)

/-- Segments that share no address give the same store in whatever order they are added. -/
theorem insertion_order {segments others : List Segment}
    (hs : ∀ s ∈ segments, s.bytes.size = s.range.length)
    (ha : segments.Pairwise fun s t => s.range.Apart t.range) (hp : others.Perm segments) :
    ∃ n, others.foldlM insert? empty = some n ∧ n.WellFormed ∧
      ∀ s, s ∈ n.segments ↔ s ∈ segments ∧ s.range.isEmpty = false := by
  obtain ⟨n, hn, hw, hm⟩ := WellFormed.empty.foldlM_insert? (fun s h => hs s (hp.mem_iff.1 h))
    ((hp.pairwise_iff fun h => h.symm).2 ha) (by simp [ranges, empty])
  refine ⟨n, hn, hw, fun s => ?_⟩
  rw [hm, hp.mem_iff]
  simp [Captured.segments, empty]

/-- Records of segments that share no address share none. -/
theorem pairwise_apart_records {segments : List Segment} {records : List MemoryRecord}
    (ha : segments.Pairwise fun s t => s.range.Apart t.range)
    (hp : (records.map (segmentOf dump)).Perm (segments.map .ok)) :
    records.Pairwise fun r q => r.range.Apart q.range := by
  have hmap : (records.map (segmentOf dump)).Pairwise fun x y =>
      ∀ s t, x = .ok s → y = .ok t → s.range.Apart t.range := by
    refine (hp.pairwise_iff fun h s t hs ht => (h t s ht hs).symm).2 ?_
    rw [List.pairwise_map]
    refine ha.imp fun {s t} hst s' t' hs ht => ?_
    cases hs
    cases ht
    exact hst
  rw [List.pairwise_map] at hmap
  refine hmap.imp_of_mem fun {r q} hr hq hrq => ?_
  obtain ⟨s, hs, hrs⟩ := List.mem_map.1 (hp.mem_iff.1 (List.mem_map_of_mem hr))
  obtain ⟨t, ht, hqt⟩ := List.mem_map.1 (hp.mem_iff.1 (List.mem_map_of_mem hq))
  rw [← (segmentOf_eq_ok_iff.1 hrs.symm).1, ← (segmentOf_eq_ok_iff.1 hqt.symm).1]
  exact hrq s t hrs.symm hqt.symm

theorem pairwise_apart_sorted {records : List MemoryRecord}
    (h : records.Pairwise fun r q => r.range.Apart q.range) :
    (sorted records).Pairwise fun r q => r.range.Apart q.range :=
  (h.filter _).perm (List.mergeSort_perm _ _).symm fun h => h.symm

/-- The same segments as records of a dump, in whatever order, are all taken. -/
theorem build_of_apart {segments : List Segment} {records : List MemoryRecord} {dump : Buffer}
    (ha : segments.Pairwise fun s t => s.range.Apart t.range)
    (hp : (records.map (segmentOf dump)).Perm (segments.map .ok)) :
    ∃ k, build records dump = .ok (k, []) ∧ k.WellFormed ∧
      ∀ s, s ∈ k.segments ↔ s ∈ segments ∧ s.range.isEmpty = false := by
  have hseg : ∀ r ∈ records, ∃ s ∈ segments, segmentOf dump r = .ok s := by
    intro r hr
    obtain ⟨s, hs, hrs⟩ := List.mem_map.1 (hp.mem_iff.1 (List.mem_map_of_mem hr))
    exact ⟨s, hs, hrs.symm⟩
  have hrec : ∀ s ∈ segments, ∃ r ∈ records, segmentOf dump r = .ok s := by
    intro s hs
    exact List.mem_map.1 (hp.mem_iff.2 (List.mem_map_of_mem hs))
  have hapart : (sorted records).Pairwise fun r q => r.range.overlaps q.range = false := by
    refine List.Pairwise.imp_of_mem ?_ (pairwise_apart_sorted (pairwise_apart_records ha hp))
    intro r q hr hq hrq
    exact (Interval.apart_iff (mem_sorted.1 hr).2 (mem_sorted.1 hq).2).1 hrq
  obtain ⟨k, hk⟩ : ∃ k, build records dump = .ok (k, []) := by
    refine assemble_ok (fun r hr => ?_) hapart (by simp)
    obtain ⟨s, _, hs⟩ := hseg r (mem_sorted.1 hr).1
    exact ⟨s, hs⟩
  refine ⟨k, hk, (build_spec hk).1, fun s => ?_⟩
  rw [mem_segments_of_build hk]
  constructor
  · rintro ⟨r, hr, hn, hrs⟩
    obtain ⟨t, ht, hrt⟩ := hseg r hr
    rw [hrs, Except.ok.injEq] at hrt
    exact ⟨hrt ▸ ht, (segmentOf_eq_ok_iff.1 hrs).1 ▸ hn⟩
  · rintro ⟨hs, hn⟩
    obtain ⟨r, hr, hrs⟩ := hrec s hs
    exact ⟨r, hr, (segmentOf_eq_ok_iff.1 hrs).1 ▸ hn, hrs⟩

/-- In every store that can be reached the table is canonical and adding a segment does what it
should; and the order of segments that share no address makes no difference that can be seen. -/
theorem store_laws :
    (∀ memory, Reachable memory →
      (memory.ranges.Pairwise fun r s => r.start < s.start) ∧
      (∀ r ∈ memory.ranges, r.isEmpty = false) ∧
      memory.ranges.Pairwise Interval.Apart ∧
      (∀ entry ∈ memory.table, entry.offset + entry.range.length ≤ memory.data.size) ∧
      ∀ new, new.bytes.size = new.range.length → memory.Adds new) ∧
    ∀ segments : List Segment, (∀ s ∈ segments, s.bytes.size = s.range.length) →
      (segments.Pairwise fun s t => s.range.Apart t.range) →
      ∃ m, segments.foldlM insert? empty = some m ∧
        (∀ others : List Segment, others.Perm segments →
          ∃ n, others.foldlM insert? empty = some n ∧ Agree m n) ∧
        ∀ records dump, (records.map (segmentOf dump)).Perm (segments.map .ok) →
          ∃ k, build records dump = .ok (k, []) ∧ Agree m k := by
  constructor
  · intro memory hreach
    have h := hreach.wellFormed
    exact ⟨h.separated.ascending, h.separated.nonempty, h.separated.pairwise_apart, h.filled,
      fun new hs => h.adds hs⟩
  · intro segments hs ha
    obtain ⟨m, hm, hmw, hmem⟩ := insertion_order hs ha (List.Perm.refl _)
    refine ⟨m, hm, ?_, ?_⟩
    · intro others hp
      obtain ⟨n, hn, hnw, hmem'⟩ := insertion_order hs ha hp
      exact ⟨n, hn, hmw.agree hnw (hmw.segments_eq hnw fun s => (hmem s).trans (hmem' s).symm)⟩
    · intro records dump hp
      obtain ⟨k, hk, hkw, hmem'⟩ := build_of_apart ha hp
      exact ⟨k, hk, hmw.agree hkw (hmw.segments_eq hkw fun s => (hmem s).trans (hmem' s).symm)⟩

/-- Two adjacent segments, added in either order or taken from a dump. -/
theorem store_laws_two :
    let s : Segment := ⟨⟨⟨0x10⟩, ⟨0x12⟩⟩, Buffer.ofBytes [1, 2]⟩
    let t : Segment := ⟨⟨⟨0x12⟩, ⟨0x13⟩⟩, Buffer.ofBytes [3]⟩
    let dump := Buffer.ofBytes [3, 1, 2]
    ((empty.add t).ranges.Pairwise fun r s => r.start < s.start) ∧ (empty.add t).Adds s ∧
      ([s, t].foldlM insert? empty).map data ≠ ([t, s].foldlM insert? empty).map data ∧
      ∃ m n k, [s, t].foldlM insert? empty = some m ∧ [t, s].foldlM insert? empty = some n ∧
        build [⟨t.range, 0⟩, ⟨s.range, 1⟩] dump = .ok (k, []) ∧ Agree m n ∧ Agree m k := by
  intro s t dump
  have ha : s.range.Apart t.range :=
    (Interval.apart_iff (by decide) (by decide)).2 (by decide)
  obtain ⟨hasc, _, _, _, hadds⟩ := store_laws.1 (empty.add t) (.add .empty (by decide))
  obtain ⟨m, hm, hothers, hrecords⟩ := store_laws.2 [s, t] (by decide) (by simp [ha])
  obtain ⟨n, hn, hmn⟩ := hothers [t, s] (List.Perm.swap s t [])
  have hrs : segmentOf dump ⟨s.range, 1⟩ = .ok s := segmentOf_eq_ok_iff.2 ⟨rfl, by decide⟩
  have hrt : segmentOf dump ⟨t.range, 0⟩ = .ok t := segmentOf_eq_ok_iff.2 ⟨rfl, by decide⟩
  have htaken : ([⟨t.range, 0⟩, ⟨s.range, 1⟩].map (segmentOf dump)).Perm ([s, t].map .ok) := by
    rw [List.map_cons, List.map_cons, List.map_nil, hrs, hrt]
    exact List.Perm.swap _ _ _
  obtain ⟨k, hk, hmk⟩ := hrecords _ dump htaken
  exact ⟨hasc, hadds s (by decide), by decide +kernel, m, n, k, hm, hn, hk, hmn, hmk⟩

end CrashDump.Captured

import CrashDump.Proofs.SnapshotMemory

/-!
# Merging lists of the system with captured memory

What the system listed is kept as it is. Captured memory that none of it holds is added as memory
that can be read, so an address is mapped exactly if it was listed or captured.
-/
namespace CrashDump

/-- What may be done with the pages of an entry; those that are only reserved allow nothing. -/
def MemoryInfo.permissions (entry : MemoryInfo) : Permissions :=
  if entry.state = committed then .ofProtection entry.protection else .noAccess

theorem MapsEntry.mapping?_eq_some_iff {entry : MapsEntry} {m : Mapping} :
    entry.mapping? = some m ↔
      entry.range.start < entry.range.stop ∧ m = ⟨entry.range, entry.permissions, entry.path⟩ := by
  have hn : ¬ entry.range.isEmpty = true ↔ entry.range.start < entry.range.stop := by
    rw [Bool.not_eq_true, Interval.isEmpty_eq_false_iff, Address.lt_def]
  unfold mapping?
  split
  · next he => simp [← hn, he]
  · next he => simp [← hn, he, eq_comm]

theorem MemoryInfo.mapping?_eq_some_iff {entry : MemoryInfo} {m : Mapping} :
    entry.mapping? = some m ↔
      entry.state ≠ free ∧ entry.size ≠ 0 ∧ ∃ stop : Address,
        stop.toNat = entry.base.toNat + entry.size.toNat ∧
          m = ⟨⟨⟨entry.base⟩, stop⟩, entry.permissions, none⟩ := by
  unfold mapping?
  split
  · next hno =>
    constructor
    · simp
    · rintro ⟨hfree, hsize, _⟩
      exact absurd hno (not_or.2 ⟨hfree, hsize⟩)
  · next hno =>
    obtain ⟨hfree, hsize⟩ := not_or.1 hno
    rw [Option.map_eq_some_iff]
    constructor
    · rintro ⟨range, hrange, rfl⟩
      obtain ⟨hstart, hstop⟩ := Interval.ofLength?_eq_some_iff.1 hrange
      refine ⟨hfree, hsize, range.stop, hstop, ?_⟩
      rw [← hstart]
      rfl
    · rintro ⟨_, _, stop, hstop, rfl⟩
      exact ⟨_, Interval.ofLength?_eq_some_iff.2 ⟨rfl, hstop⟩, rfl⟩

namespace RegionMap

variable {maps : Option (List MapsEntry)} {info : Option (List MemoryInfo)} {captured : Captured}
  {modules : ModuleList} {map : RegionMap} {m : Mapping} {a : Address}

/-- The mappings that the system listed: the lines of its own list that are not empty or, without
such a list, the entries of the memory information that are not free, not empty and do not wrap. -/
inductive Supplied (maps : Option (List MapsEntry)) (info : Option (List MemoryInfo)) :
    Mapping → Prop
  | line {entries : List MapsEntry} {entry : MapsEntry} (listed : maps = some entries)
      (member : entry ∈ entries) (nonempty : entry.range.start < entry.range.stop) :
      Supplied maps info ⟨entry.range, entry.permissions, entry.path⟩
  | pages {entries : List MemoryInfo} {entry : MemoryInfo} {stop : Address}
      (unlisted : maps = none) (listed : info = some entries) (member : entry ∈ entries)
      (used : entry.state ≠ MemoryInfo.free) (nonempty : entry.size ≠ 0)
      (fits : stop.toNat = entry.base.toNat + entry.size.toNat) :
      Supplied maps info ⟨⟨⟨entry.base⟩, stop⟩, entry.permissions, none⟩

theorem supplied_iff_of_maps {entries : List MapsEntry} :
    Supplied (some entries) info m ↔ m ∈ entries.filterMap MapsEntry.mapping? := by
  simp only [List.mem_filterMap, MapsEntry.mapping?_eq_some_iff]
  constructor
  · intro h
    cases h with
    | line listed member nonempty =>
      cases listed
      exact ⟨_, member, nonempty, rfl⟩
    | pages unlisted => cases unlisted
  · rintro ⟨entry, member, nonempty, rfl⟩
    exact .line rfl member nonempty

theorem supplied_iff_of_info {entries : List MemoryInfo} :
    Supplied none (some entries) m ↔ m ∈ entries.filterMap MemoryInfo.mapping? := by
  simp only [List.mem_filterMap, MemoryInfo.mapping?_eq_some_iff]
  constructor
  · intro h
    cases h with
    | line listed => cases listed
    | pages _ listed member used nonempty fits =>
      cases listed
      exact ⟨_, member, used, nonempty, _, fits, rfl⟩
  · rintro ⟨entry, member, used, nonempty, stop, fits, rfl⟩
    exact .pages rfl rfl member used nonempty fits

theorem mem_listed?_iff {source : RegionSource} {mappings : List Mapping}
    (h : listed? maps info = some (source, mappings)) : m ∈ mappings ↔ Supplied maps info m := by
  unfold listed? at h
  split at h
  · obtain ⟨_, rfl⟩ : _ ∧ _ = mappings := by simpa using h
    exact supplied_iff_of_maps.symm
  · obtain ⟨_, rfl⟩ : _ ∧ _ = mappings := by simpa using h
    exact supplied_iff_of_info.symm
  · simp at h

theorem permissions_of_mem_unlisted {listed : List Mapping}
    (h : m ∈ unlisted captured modules listed) : m.permissions = .readOnly := by
  obtain ⟨piece, _, rfl⟩ := List.mem_map.1 h
  rfl

/-- A map with a list of the system holds the listed mappings, and captured memory outside them. -/
theorem merged_of_source (hc : captured.WellFormed)
    (h : build maps info captured modules = .ok map) (hs : map.source ≠ .captured) :
    (∀ m, Supplied maps info m → m ∈ map.mappings) ∧
    (∀ m ∈ map.mappings, ¬ Supplied maps info m → m.permissions = .readOnly ∧
      ∀ a, m.range.contains a = true → (captured.byteAt? a).isSome = true ∧
        ∀ n, Supplied maps info n → n.range.contains a = false) ∧
    ∀ a, (map.regionAt a).isMapped = true ↔
      (∃ m, Supplied maps info m ∧ m.range.contains a = true) ∨
        (captured.byteAt? a).isSome = true := by
  have hsep := build_separated hc.separated h
  rcases build_cases hc.separated h with
    ⟨source, mappings, listed, hlisted, hperm, hl, rfl⟩ | ⟨_, rfl⟩
  · have hsupplied : ∀ m, m ∈ listed ↔ Supplied maps info m := fun m =>
      hperm.mem_iff.trans (mem_listed?_iff hlisted)
    have hadded : ∀ a, (∃ m ∈ unlisted captured modules listed, m.range.contains a = true) ↔
        (captured.byteAt? a).isSome = true ∧
          ∀ n, Supplied maps info n → n.range.contains a = false := by
      intro a
      rw [contains_unlisted hl, hc.byteAt?_isSome_iff]
      simp only [hsupplied]
    simp only [List.mem_mergeSort, List.mem_append] at hsep ⊢
    refine ⟨fun m hm => .inl ((hsupplied m).2 hm), fun m hm hno => ?_, fun a => ?_⟩
    · rcases hm with hm | hm
      · exact absurd ((hsupplied m).1 hm) hno
      · exact ⟨permissions_of_mem_unlisted hm, fun a ha => (hadded a).1 ⟨m, hm, ha⟩⟩
    · rw [isMapped_regionAt hsep]
      simp only [List.mem_mergeSort, List.mem_append, or_and_right, exists_or, hadded, hsupplied]
      constructor
      · rintro (hm | ⟨ha, _⟩)
        · exact .inl hm
        · exact .inr ha
      · rintro (hm | ha)
        · exact .inl hm
        · by_cases hm : ∃ m, Supplied maps info m ∧ m.range.contains a = true
          · exact .inl hm
          · exact .inr ⟨ha, fun n hn => Bool.eq_false_iff.2 fun hna => hm ⟨n, hn, hna⟩⟩
  · exact absurd rfl hs

/-- Every captured byte is mapped, whatever the map was made from. -/
theorem isMapped_of_captured (hc : captured.WellFormed)
    (h : build maps info captured modules = .ok map) (ha : (captured.byteAt? a).isSome = true) :
    (map.regionAt a).isMapped = true := by
  by_cases hs : map.source = .captured
  · rw [isMapped_regionAt (build_separated hc.separated h), mappings_of_source hc.separated h hs,
      contains_shown]
    exact hc.byteAt?_isSome_iff.1 ha
  · exact ((merged_of_source hc h hs).2.2 a).2 (.inr ha)

/-- Lists of the system and captured memory are merged without loss, and so every captured byte of a
snapshot is mapped. -/
theorem merge_lossless :
    (∀ maps info captured modules map, Captured.Reachable captured →
      build maps info captured modules = .ok map → map.source ≠ .captured →
      (∀ m, Supplied maps info m → m ∈ map.mappings) ∧
      (∀ m ∈ map.mappings, ¬ Supplied maps info m → m.permissions = .readOnly ∧
        ∀ a, m.range.contains a = true → (captured.byteAt? a).isSome = true ∧
          ∀ n, Supplied maps info n → n.range.contains a = false) ∧
      ∀ a, (map.regionAt a).isMapped = true ↔
        (∃ m, Supplied maps info m ∧ m.range.contains a = true) ∨
          (captured.byteAt? a).isSome = true) ∧
    ∀ data options disk s, Snapshot.load data options disk = .ok s →
      ∀ a, (s.memory.byteAt? a).isSome = true → (s.region a).isMapped = true := by
  constructor
  · intro maps info captured modules map hc h hs
    exact merged_of_source hc.wellFormed h hs
  · intro data options disk s h a ha
    obtain ⟨steps, lead⟩ := Snapshot.exists_steps h
    obtain ⟨maps, info, hbuild⟩ := lead.exists_build
    exact isMapped_of_captured lead.wellFormed hbuild ha

/-- Captured memory that starts before a committed entry and ends behind it, between entries that
count for nothing. -/
theorem merge_lossless_info :
    let used : MemoryInfo := ⟨0x1001, 0, 0, 0, 1, MemoryInfo.committed, 4, 0, 0⟩
    let free : MemoryInfo := ⟨0x1000, 0, 0, 0, 0x1000, MemoryInfo.free, 0, 0, 0⟩
    let wrapping : MemoryInfo := ⟨0xffffffffffffffff, 0, 0, 0, 1, MemoryInfo.committed, 4, 0, 0⟩
    let captured := Captured.empty.add ⟨⟨⟨0x1000⟩, ⟨0x1003⟩⟩, Buffer.ofBytes [1, 2, 3]⟩
    (∃ map, build none (some [free, wrapping, used]) captured ⟨[]⟩ = .ok map ∧
      ⟨⟨⟨0x1001⟩, ⟨0x1002⟩⟩, ⟨true, true, false⟩, none⟩ ∈ map.mappings ∧
      (map.regionAt ⟨0x1000⟩).isMapped = true ∧ (map.regionAt ⟨0x1002⟩).isMapped = true ∧
      (map.regionAt ⟨0x1003⟩).isMapped = false) ∧
    ∃ s, Snapshot.load Snapshot.sample .standard Snapshot.noFiles = .ok s ∧
      (s.region ⟨0x1006⟩).isMapped = true := by
  intro used free wrapping captured
  constructor
  · have hmap : build none (some [free, wrapping, used]) captured ⟨[]⟩ = .ok ⟨.memoryInfo,
        [⟨⟨⟨0x1000⟩, ⟨0x1001⟩⟩, .readOnly, none⟩,
          ⟨⟨⟨0x1001⟩, ⟨0x1002⟩⟩, ⟨true, true, false⟩, none⟩,
          ⟨⟨⟨0x1002⟩, ⟨0x1003⟩⟩, .readOnly, none⟩]⟩ := by
      cbv
    obtain ⟨hkept, _, hmapped⟩ := merge_lossless.1 _ _ _ _ _ (.add .empty (by decide)) hmap
      (by decide)
    have hmember : used ∈ [free, wrapping, used] := by decide
    have hstop : (Address.mk 0x1002).toNat = used.base.toNat + used.size.toNat := by decide
    have hused : Supplied none (some [free, wrapping, used])
        ⟨⟨⟨used.base⟩, ⟨0x1002⟩⟩, used.permissions, none⟩ :=
      .pages rfl rfl hmember (by decide) (by decide) hstop
    have hpermissions : used.permissions = ⟨true, true, false⟩ := by decide
    rw [hpermissions] at hused
    refine ⟨_, hmap, hkept _ hused, (hmapped ⟨0x1000⟩).2 (.inr (by decide +kernel)),
      (hmapped ⟨0x1002⟩).2 (.inr (by decide +kernel)), ?_⟩
    decide +kernel
  · obtain ⟨s, hs, hread⟩ := Snapshot.load_sample
    obtain ⟨steps, lead⟩ := Snapshot.exists_steps hs
    obtain ⟨hbytes, _⟩ := Snapshot.read_eq_full_iff.1 hread
    have hbyte : (s.memory.byteAfter? ⟨0x1000⟩ 6).isSome = true :=
      (lead.wellFormed.reads ⟨0x1000⟩ 7).isSome_byteAfter? (by rw [hbytes]; decide)
    exact ⟨s, hs, merge_lossless.2 _ _ _ s hs ⟨0x1006⟩ hbyte⟩

end RegionMap
end CrashDump

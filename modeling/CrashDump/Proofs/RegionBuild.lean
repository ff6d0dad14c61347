import CrashDump.Proofs.Outcome
import CrashDump.Proofs.Pieces

/-!
# Building the region map

From whatever source it is made, a region map lists separated intervals: what the system listed is
checked, and the captured memory that is added lies outside of it.
-/
namespace CrashDump

theorem MapsEntry.isEmpty_of_mapping? {entry : MapsEntry} {m : Mapping}
    (h : entry.mapping? = some m) : m.range.isEmpty = false := by
  unfold MapsEntry.mapping? at h
  split at h
  · simp at h
  · next hn =>
    obtain rfl := Option.some.inj h
    exact Bool.eq_false_iff.2 hn

theorem MemoryInfo.isEmpty_of_mapping? {info : MemoryInfo} {m : Mapping}
    (h : info.mapping? = some m) : m.range.isEmpty = false := by
  unfold MemoryInfo.mapping? at h
  split at h
  · simp at h
  · next hn =>
    obtain ⟨range, hr, rfl⟩ := Option.map_eq_some_iff.1 h
    obtain ⟨hstart, hstop⟩ := Interval.ofLength?_eq_some_iff.1 hr
    have hsize : info.size.toNat ≠ 0 := fun h0 => hn (.inr (UInt64.toNat_inj.1 h0))
    rw [← hstart] at hstop
    have hlt : range.start.toNat < range.stop.toNat := by omega
    exact Interval.isEmpty_eq_false_iff.2 hlt

namespace RegionMap

variable {maps : Option (List MapsEntry)} {info : Option (List MemoryInfo)} {captured : Captured}
  {modules : ModuleList} {mappings listed : List Mapping} {map : RegionMap}

/-- The intervals that a map lists. -/
def ranges (map : RegionMap) : List Interval := map.mappings.map Mapping.range

theorem isEmpty_of_listed? {source : RegionSource}
    (h : listed? maps info = some (source, mappings)) :
    ∀ m ∈ mappings, m.range.isEmpty = false := by
  intro m hm
  unfold listed? at h
  split at h
  · obtain ⟨_, rfl⟩ : _ ∧ _ = mappings := by simpa using h
    obtain ⟨entry, _, hentry⟩ := List.mem_filterMap.1 hm
    exact MapsEntry.isEmpty_of_mapping? hentry
  · obtain ⟨_, rfl⟩ : _ ∧ _ = mappings := by simpa using h
    obtain ⟨entry, _, hentry⟩ := List.mem_filterMap.1 hm
    exact MemoryInfo.isEmpty_of_mapping? hentry
  · simp at h

theorem source_of_listed? {source : RegionSource}
    (h : listed? maps info = some (source, mappings)) :
    source ≠ .captured := by
  unfold listed? at h
  split at h
  · obtain ⟨rfl, _⟩ : .linuxMaps = source ∧ _ := by simpa using h
    exact RegionSource.noConfusion
  · obtain ⟨rfl, _⟩ : .memoryInfo = source ∧ _ := by simpa using h
    exact RegionSource.noConfusion
  · simp at h

/-- It is enough to compare neighbours. -/
theorem separated_of_firstOverlap? (hn : ∀ m ∈ mappings, m.range.isEmpty = false)
    (h : firstOverlap? mappings = none) : Interval.Separated (mappings.map Mapping.range) := by
  induction mappings with
  | nil => exact Interval.Separated.nil
  | cons m rest ih =>
    cases rest with
    | nil => exact Interval.Separated.cons_iff.2 ⟨hn m (by simp), by simp, Interval.Separated.nil⟩
    | cons n rest =>
      unfold firstOverlap? at h
      split at h
      · simp at h
      · next hle =>
        have hrest := ih (fun o ho => hn o (by simp [ho])) h
        have hnext := Interval.Separated.cons_iff.1 hrest
        have hno := Interval.isEmpty_eq_false_iff.1 hnext.1
        refine Interval.Separated.cons_iff.2 ⟨hn m (by simp), fun s hs => ?_, hrest⟩
        rw [Address.lt_def] at hle
        rw [Address.le_def]
        rcases List.mem_cons.1 hs with rfl | hs
        · omega
        · have hle' := hnext.2.1 s hs
          rw [Address.le_def] at hle'
          omega

theorem perm_of_sorted (h : sorted mappings = .ok listed) : listed.Perm mappings := by
  simp only [sorted] at h
  split at h
  · simp at h
  · obtain rfl := Except.ok.inj h
    exact List.mergeSort_perm ..

theorem separated_of_sorted (hn : ∀ m ∈ mappings, m.range.isEmpty = false)
    (h : sorted mappings = .ok listed) : Interval.Separated (listed.map Mapping.range) := by
  have hperm := perm_of_sorted h
  simp only [sorted] at h
  split at h
  · simp at h
  · next hnone =>
    obtain rfl := Except.ok.inj h
    exact separated_of_firstOverlap? (fun m hm => hn m (hperm.mem_iff.1 hm)) hnone

theorem firstOverlap?_of_separated (h : Interval.Separated (mappings.map Mapping.range)) :
    firstOverlap? mappings = none := by
  induction mappings with
  | nil => rfl
  | cons m rest ih =>
    obtain ⟨_, hfirst, hrest⟩ := Interval.Separated.cons_iff.1 h
    cases rest with
    | nil => rfl
    | cons n rest =>
      have hle := hfirst n.range (by simp)
      rw [Address.le_def] at hle
      rw [firstOverlap?, if_neg (by rw [Address.lt_def]; omega)]
      exact ih hrest

/-- Separated mappings stay as they are. -/
theorem sorted_of_separated (h : Interval.Separated (mappings.map Mapping.range)) :
    sorted mappings = .ok mappings := by
  have hascending := h.ascending
  rw [List.pairwise_map] at hascending
  have hsort : (mappings.mergeSort fun m n => m.range.precedes n.range) = mappings := by
    apply List.mergeSort_of_pairwise
    exact hascending.imp fun hlt => Interval.precedes_iff.2 (.inl hlt)
  simp only [sorted, hsort, firstOverlap?_of_separated h]

theorem map_range_shown : (shown captured modules).map Mapping.range =
    captured.ranges.flatMap fun range =>
      (Interval.cutAt range.stop range.start (Search.dropPassing
        (fun piece => piece.stop ≤ range.start) modules.executableRanges)).map Prod.fst := by
  simp [shown, List.map_flatMap, Function.comp_def]

theorem map_range_unlisted : (unlisted captured modules listed).map Mapping.range =
    captured.ranges.flatMap fun range =>
      Interval.outside range.stop range.start ((Search.dropPassing
        (fun m => m.range.stop ≤ range.start) listed).map Mapping.range) := by
  simp [unlisted, Function.comp_def]

theorem separated_shown (h : Interval.Separated captured.ranges) :
    Interval.Separated ((shown captured modules).map Mapping.range) := by
  rw [map_range_shown]
  exact h.flatMap fun r _ => Interval.cutAt_within r.stop r.start _

theorem mem_shown {m : Mapping} : m ∈ shown captured modules ↔
    ∃ r ∈ captured.ranges, ∃ p ∈ Interval.cutAt r.stop r.start (Search.dropPassing
      (fun piece => piece.stop ≤ r.start) modules.executableRanges),
      m = ⟨p.1, ⟨true, false, p.2⟩, modules.pathAt? p.1.start⟩ := by
  simp only [shown, List.mem_map, List.mem_flatMap]
  constructor
  · rintro ⟨p, ⟨r, hr, hp⟩, rfl⟩
    exact ⟨r, hr, p, hp, rfl⟩
  · rintro ⟨r, hr, p, hp, rfl⟩
    exact ⟨p, ⟨r, hr, hp⟩, rfl⟩

/-- What captured memory shows is all of it. -/
theorem contains_shown {a : Address} :
    (∃ m ∈ shown captured modules, m.range.contains a = true) ↔
      ∃ r ∈ captured.ranges, r.contains a = true := by
  constructor
  · rintro ⟨m, hm, ha⟩
    obtain ⟨r, hr, p, hp, rfl⟩ := mem_shown.1 hm
    exact ⟨r, hr, Interval.contains_iff.2 ((Interval.contains_cutAt _).1 ⟨p, hp, ha⟩)⟩
  · rintro ⟨r, hr, ha⟩
    obtain ⟨p, hp, hpa⟩ := (Interval.contains_cutAt _).2 (Interval.contains_iff.1 ha)
    exact ⟨_, mem_shown.2 ⟨r, hr, p, hp, rfl⟩, hpa⟩

/-- The listed mappings that end at or before a captured interval need not be looked at. -/
theorem outside_listed (hl : Interval.Separated (listed.map Mapping.range)) (r : Interval) :
    Interval.Within r.start r.stop (Interval.outside r.stop r.start ((Search.dropPassing
      (fun m => m.range.stop ≤ r.start) listed).map Mapping.range)) ∧
    ∀ a, (∃ p ∈ Interval.outside r.stop r.start ((Search.dropPassing
        (fun m => m.range.stop ≤ r.start) listed).map Mapping.range), p.contains a = true) ↔
      r.contains a = true ∧ ∀ m ∈ listed, m.range.contains a = false := by
  obtain ⟨front, back, rfl, hi, hf, _⟩ := hl.exists_boundary r.start
  rw [List.map_append] at hl
  have hback := (Interval.Separated.append_iff.1 hl).2.1
  rw [Search.dropPassing, hi, List.drop_left]
  refine ⟨Interval.outside_within hback r.stop r.start, fun a => ?_⟩
  rw [Interval.contains_outside hback, List.forall_mem_append, List.forall_mem_map,
    Interval.contains_iff]
  have hfront : r.start.toNat ≤ a.toNat → ∀ m ∈ front, m.range.contains a = false := by
    intro ha m hm
    have hle := hf m hm
    rw [Address.le_def] at hle
    exact Interval.contains_eq_false_iff.2 (.inr (by omega))
  constructor
  · rintro ⟨ha, hno⟩
    exact ⟨ha, hfront ha.1, hno⟩
  · rintro ⟨ha, _, hno⟩
    exact ⟨ha, hno⟩

theorem separated_unlisted (h : Interval.Separated captured.ranges)
    (hl : Interval.Separated (listed.map Mapping.range)) :
    Interval.Separated ((unlisted captured modules listed).map Mapping.range) := by
  rw [map_range_unlisted]
  exact h.flatMap fun r _ => (outside_listed hl r).1

/-- What is added holds the captured addresses that no listed mapping holds. -/
theorem contains_unlisted (hl : Interval.Separated (listed.map Mapping.range)) {a : Address} :
    (∃ m ∈ unlisted captured modules listed, m.range.contains a = true) ↔
      (∃ r ∈ captured.ranges, r.contains a = true) ∧
        ∀ m ∈ listed, m.range.contains a = false := by
  constructor
  · rintro ⟨m, hm, ha⟩
    have hp : m.range ∈ (unlisted captured modules listed).map Mapping.range :=
      List.mem_map_of_mem hm
    rw [map_range_unlisted] at hp
    obtain ⟨r, hr, hp⟩ := List.mem_flatMap.1 hp
    obtain ⟨hra, hno⟩ := ((outside_listed hl r).2 a).1 ⟨m.range, hp, ha⟩
    exact ⟨⟨r, hr, hra⟩, hno⟩
  · rintro ⟨⟨r, hr, hra⟩, hno⟩
    obtain ⟨p, hp, ha⟩ := ((outside_listed hl r).2 a).2 ⟨hra, hno⟩
    have hp : p ∈ (unlisted captured modules listed).map Mapping.range := by
      rw [map_range_unlisted]
      exact List.mem_flatMap.2 ⟨r, hr, hp⟩
    obtain ⟨m, hm, rfl⟩ := List.mem_map.1 hp
    exact ⟨m, hm, ha⟩

theorem pairwise_start_merged (mappings : List Mapping) :
    ((mappings.mergeSort fun m n => m.range.start ≤ n.range.start).map Mapping.range).Pairwise
      fun r s => r.start ≤ s.start := by
  have h : (mappings.mergeSort fun m n => m.range.start ≤ n.range.start).Pairwise
      fun m n => decide (m.range.start ≤ n.range.start) = true := by
    apply List.pairwise_mergeSort
    · intro m n o hmn hno
      rw [decide_eq_true_eq, Address.le_def] at hmn hno ⊢
      omega
    · intro m n
      simp only [Bool.or_eq_true, decide_eq_true_eq, Address.le_def]
      omega
  rw [List.pairwise_map]
  exact h.imp of_decide_eq_true

/-- Listed mappings and what is added to them, sorted by start only, are still separated. -/
theorem separated_merged (h : Interval.Separated captured.ranges)
    (hl : Interval.Separated (listed.map Mapping.range)) :
    Interval.Separated (((listed ++ unlisted captured modules listed).mergeSort
      fun m n => m.range.start ≤ n.range.start).map Mapping.range) := by
  have hu : Interval.Separated ((unlisted captured modules listed).map Mapping.range) :=
    separated_unlisted h hl
  have hperm := (List.mergeSort_perm (listed ++ unlisted captured modules listed)
    fun m n => m.range.start ≤ n.range.start).map Mapping.range
  rw [List.map_append] at hperm
  refine Interval.Separated.of_sorted (fun r hr => ?_) (pairwise_start_merged _) ?_
  · rcases List.mem_append.1 (hperm.mem_iff.1 hr) with hr | hr
    · exact hl.nonempty r hr
    · exact hu.nonempty r hr
  · rw [hperm.pairwise_iff fun hrs => hrs.symm]
    refine List.pairwise_append.2 ⟨hl.pairwise_apart, hu.pairwise_apart, fun r hr s hs => ?_⟩
    obtain ⟨m, hm, rfl⟩ := List.mem_map.1 hr
    obtain ⟨n, hn, rfl⟩ := List.mem_map.1 hs
    refine Interval.Apart.symm fun a ha => ?_
    exact ((contains_unlisted hl).1 ⟨n, hn, ha⟩).2 m hm

/-- Captured memory alone always makes a map, which lists what it shows. -/
theorem build_of_captured (h : Interval.Separated captured.ranges) :
    build none none captured modules = .ok ⟨.captured, shown captured modules⟩ := by
  have hshown : Interval.Separated ((shown captured modules).map Mapping.range) :=
    separated_shown h
  simp only [build, listed?, sorted_of_separated hshown]
  rfl

/-- A map that was built lists what the system listed and captured memory outside of it or, if there
is no such list, what captured memory shows. -/
theorem build_cases (hc : Interval.Separated captured.ranges)
    (h : build maps info captured modules = .ok map) :
    (∃ source mappings listed, listed? maps info = some (source, mappings) ∧
      listed.Perm mappings ∧ Interval.Separated (listed.map Mapping.range) ∧
      map = ⟨source, (listed ++ unlisted captured modules listed).mergeSort
        fun m n => m.range.start ≤ n.range.start⟩) ∨
      listed? maps info = none ∧ map = ⟨.captured, shown captured modules⟩ := by
  unfold build at h
  split at h
  · next source mappings hlisted =>
    obtain ⟨listed, hsorted, h⟩ := bind_eq_ok.1 h
    exact .inl ⟨source, mappings, listed, hlisted, perm_of_sorted hsorted,
      separated_of_sorted (isEmpty_of_listed? hlisted) hsorted, (Except.ok.inj h).symm⟩
  · next hlisted =>
    rw [sorted_of_separated (separated_shown hc)] at h
    exact .inr ⟨hlisted, (Except.ok.inj h).symm⟩

theorem build_separated (hc : Interval.Separated captured.ranges)
    (h : build maps info captured modules = .ok map) : Interval.Separated map.ranges := by
  rcases build_cases hc h with ⟨_, _, listed, _, _, hlisted, rfl⟩ | ⟨_, rfl⟩
  · exact separated_merged hc hlisted
  · exact separated_shown hc

/-- A map made from captured memory alone lists what this shows. -/
theorem mappings_of_source (hc : Interval.Separated captured.ranges)
    (h : build maps info captured modules = .ok map) (hs : map.source = .captured) :
    map.mappings = shown captured modules := by
  rcases build_cases hc h with ⟨_, _, listed, hlisted, _, _, rfl⟩ | ⟨_, rfl⟩
  · exact absurd hs (source_of_listed? hlisted)
  · rfl

end RegionMap
end CrashDump

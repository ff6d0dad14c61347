import CrashDump.Proofs.LoadFaults
import CrashDump.Proofs.RegionMerge

/-!
# Lists that overlap

A list of the system makes a map unless two of its entries hold one address. Its order is of no
account, nor is the captured memory that it is merged with.
-/
namespace CrashDump

/-- The interval of an entry; it is right only for one that fits the address space. -/
def MemoryInfo.pages (entry : MemoryInfo) : Interval :=
  ⟨⟨entry.base⟩, ⟨entry.base + entry.size⟩⟩

/-- Whether an entry holds an address. One that is free or does not fit holds none. -/
def MemoryInfo.Holds (entry : MemoryInfo) (a : Address) : Prop :=
  entry.state ≠ free ∧ entry.base.toNat + entry.size.toNat < UInt64.size ∧
    entry.pages.contains a = true

theorem MapsEntry.range_of_mapping? {entry : MapsEntry} {m : Mapping}
    (h : entry.mapping? = some m) : m.range = entry.range := by
  obtain ⟨_, rfl⟩ := mapping?_eq_some_iff.1 h
  rfl

theorem MapsEntry.contains_iff {entry : MapsEntry} {a : Address} :
    entry.range.contains a = true ↔
      ∃ m, entry.mapping? = some m ∧ m.range.contains a = true := by
  constructor
  · intro h
    have hin := Interval.contains_iff.1 h
    exact ⟨_, mapping?_eq_some_iff.2 ⟨Address.lt_def.2 (by omega), rfl⟩, h⟩
  · rintro ⟨m, hm, h⟩
    rwa [range_of_mapping? hm] at h

theorem MemoryInfo.toNat_stop_pages {entry : MemoryInfo}
    (h : entry.base.toNat + entry.size.toNat < UInt64.size) :
    entry.pages.stop.toNat = entry.base.toNat + entry.size.toNat := by
  change (entry.base + entry.size).toNat = _
  rw [UInt64.toNat_add]
  exact Nat.mod_eq_of_lt h

theorem MemoryInfo.range_of_mapping? {entry : MemoryInfo} {m : Mapping}
    (h : entry.mapping? = some m) : m.range = entry.pages := by
  obtain ⟨_, _, stop, hstop, rfl⟩ := mapping?_eq_some_iff.1 h
  have hfits := toNat_stop_pages (hstop ▸ stop.toNat_lt)
  rw [← hstop] at hfits
  exact congrArg (Interval.mk _) (Address.ext_toNat hfits).symm

theorem MemoryInfo.holds_iff {entry : MemoryInfo} {a : Address} :
    entry.Holds a ↔ ∃ m, entry.mapping? = some m ∧ m.range.contains a = true := by
  constructor
  · rintro ⟨hused, hfits, h⟩
    have hstop := toNat_stop_pages hfits
    have hsize : entry.size ≠ 0 := by
      intro hzero
      obtain ⟨hstart, hlt⟩ := Interval.contains_iff.1 h
      rw [hstop, hzero] at hlt
      exact absurd hlt (Nat.not_lt.2 hstart)
    exact ⟨_, mapping?_eq_some_iff.2 ⟨hused, hsize, _, hstop, rfl⟩, h⟩
  · rintro ⟨m, hm, h⟩
    obtain ⟨hused, _, stop, hstop, _⟩ := mapping?_eq_some_iff.1 hm
    rw [range_of_mapping? hm] at h
    exact ⟨hused, hstop ▸ stop.toNat_lt, h⟩

namespace RegionMap

variable {α : Type} {mappings others listed : List Mapping} {first second : Interval}
  {m n : Mapping}

/-- What is found is a pair of the mappings, one behind the other. -/
theorem exists_of_firstOverlap? (h : firstOverlap? mappings = some (first, second)) :
    ∃ m n, [m, n].Sublist mappings ∧ m.range = first ∧ n.range = second := by
  induction mappings with
  | nil => simp [firstOverlap?] at h
  | cons m rest ih =>
    cases rest with
    | nil => simp [firstOverlap?] at h
    | cons n rest =>
      unfold firstOverlap? at h
      split at h
      · obtain ⟨rfl, rfl⟩ := Prod.mk.inj (Option.some.inj h)
        exact ⟨m, n, by simp, rfl, rfl⟩
      · obtain ⟨o, p, hsublist, hranges⟩ := ih h
        exact ⟨o, p, hsublist.cons m, hranges⟩

/-- Only the intervals of the mappings are compared. -/
theorem firstOverlap?_congr (h : mappings.map Mapping.range = others.map Mapping.range) :
    firstOverlap? mappings = firstOverlap? others := by
  induction mappings generalizing others with
  | nil => rw [List.map_eq_nil_iff.1 h.symm]
  | cons m rest ih =>
    obtain ⟨m', rest', rfl, hm, hrest⟩ := List.map_eq_cons_iff.1 h.symm
    cases rest with
    | nil => rw [List.map_eq_nil_iff.1 hrest]; rfl
    | cons n rest =>
      obtain ⟨n', rest', rfl, hn, _⟩ := List.map_eq_cons_iff.1 hrest
      rw [firstOverlap?, firstOverlap?, hm, hn, ih hrest.symm]

/-- Sorting puts the same intervals in the same order. -/
theorem map_range_mergeSort (hp : others.Perm mappings) :
    (others.mergeSort fun m n => m.range.precedes n.range).map Mapping.range =
      (mappings.mergeSort fun m n => m.range.precedes n.range).map Mapping.range := by
  have hantisymm : ∀ r s : Interval, r.precedes s = true → s.precedes r = true → r = s := fun _ _ =>
    Interval.eq_of_precedes
  apply List.Perm.eq_of_pairwise fun r s _ _ => hantisymm r s
  · exact List.pairwise_map.2 (Interval.pairwise_mergeSort Mapping.range others)
  · exact List.pairwise_map.2 (Interval.pairwise_mergeSort Mapping.range mappings)
  · exact ((List.mergeSort_perm _ _).trans (hp.trans (List.mergeSort_perm _ _).symm)).map _

/-- Separated mappings have one order. -/
theorem eq_of_separated (hp : others.Perm mappings)
    (ho : Interval.Separated (others.map Mapping.range))
    (hm : Interval.Separated (mappings.map Mapping.range)) : others = mappings := by
  have hasymm : ∀ m n : Mapping, m.range.start < n.range.start → n.range.start < m.range.start →
      m = n := fun _ _ hmn hnm => absurd hmn (Nat.lt_asymm hnm)
  apply List.Perm.eq_of_pairwise fun m n _ _ => hasymm m n
  · have hascending := ho.ascending
    rwa [List.pairwise_map] at hascending
  · have hascending := hm.ascending
    rwa [List.pairwise_map] at hascending
  · exact hp

/-- Mappings in another order are sorted the same way, or refused for the same two intervals. -/
theorem sorted_of_perm (hn : ∀ m ∈ mappings, m.range.isEmpty = false)
    (hp : others.Perm mappings) : sorted others = sorted mappings := by
  have hsort := List.mergeSort_perm mappings fun m n => m.range.precedes n.range
  have hothers := List.mergeSort_perm others fun m n => m.range.precedes n.range
  have hover := firstOverlap?_congr (map_range_mergeSort hp)
  simp only [sorted, hover]
  split
  · rfl
  · next hnone =>
    rw [hnone] at hover
    have hm := separated_of_firstOverlap? (fun m hm => hn m (hsort.mem_iff.1 hm)) hnone
    have ho := separated_of_firstOverlap? (fun m hm => hn m ((hothers.trans hp).mem_iff.1 hm)) hover
    rw [eq_of_separated (hothers.trans (hp.trans hsort.symm)) ho hm]

/-- Two items of a list, in either order, are in no relation that all pairs are free of. -/
theorem not_of_subperm {R : α → α → Prop} (hsymm : ∀ {x y}, R x y → R y x) {x y : α}
    {items : List α} (h : items.Pairwise R) (hxy : [x, y].Subperm items) : R x y := by
  obtain ⟨pair, hperm, hsublist⟩ := hxy
  have hpair := (hperm.pairwise_iff hsymm).1 (h.sublist hsublist)
  exact List.rel_of_pairwise_cons hpair (List.mem_singleton.2 rfl)

theorem subperm_filterMap {f : α → Option Mapping} {x y : α} {items : List α}
    (h : [x, y].Subperm items) (hx : f x = some m) (hy : f y = some n) :
    [m, n].Subperm (items.filterMap f) := by
  obtain ⟨pair, hperm, hsublist⟩ := h
  refine ⟨pair.filterMap f, ?_, hsublist.filterMap f⟩
  have hfilter := hperm.filterMap f
  rwa [List.filterMap_cons_some hx, List.filterMap_cons_some hy, List.filterMap_nil] at hfilter

theorem exists_subperm_of_filterMap {f : α → Option Mapping} {items : List α}
    (h : [m, n].Subperm (items.filterMap f)) :
    ∃ x y, [x, y].Subperm items ∧ f x = some m ∧ f y = some n := by
  obtain ⟨x, hx, hm⟩ := List.mem_filterMap.1 (h.subset List.mem_cons_self)
  obtain ⟨front, back, rfl⟩ := List.append_of_mem hx
  have hperm : (front ++ x :: back).Perm (x :: (front ++ back)) := List.perm_middle
  have hrest := (hperm.filterMap f).subperm_left.1 h
  rw [List.filterMap_cons_some hm, List.subperm_cons, List.singleton_subperm_iff] at hrest
  obtain ⟨y, hy, hn⟩ := List.mem_filterMap.1 hrest
  refine ⟨x, y, hperm.subperm_left.2 ?_, hm, hn⟩
  exact List.subperm_cons _ |>.2 (List.singleton_subperm_iff.2 hy)

section Sorted

variable {fault : SnapshotFault} (hn : ∀ m ∈ mappings, m.range.isEmpty = false)
include hn

/-- Mappings are refused for two of them that share an address. -/
theorem exists_of_sorted_eq_error (h : sorted mappings = .error fault) :
    ∃ m n, [m, n].Subperm mappings ∧
      (∃ a, m.range.contains a = true ∧ n.range.contains a = true) ∧
      fault = .corruptMemoryMap m.range n.range := by
  have hsort := List.mergeSort_perm mappings fun m n => m.range.precedes n.range
  simp only [sorted] at h
  split at h
  · next first second hover =>
    obtain rfl := Except.error.inj h
    obtain ⟨m, n, hsublist, rfl, rfl⟩ := exists_of_firstOverlap? hover
    have hclash := clash_of_firstOverlap? (fun m hm => hn m (hsort.mem_iff.1 hm))
      (Interval.pairwise_mergeSort Mapping.range mappings) hover
    exact ⟨m, n, hsort.subperm_left.1 hsublist.subperm, hclash.2, rfl⟩
  · simp at h

/-- Comparing neighbours finds any two mappings that share an address. -/
theorem exists_sorted_eq_error (hmn : [m, n].Subperm mappings) {a : Address}
    (hm : m.range.contains a = true) (hna : n.range.contains a = true) :
    ∃ fault, sorted mappings = .error fault := by
  cases hsorted : sorted mappings with
  | error fault => exact ⟨fault, rfl⟩
  | ok listed =>
    have hapart := (separated_of_sorted hn hsorted).pairwise_apart
    rw [List.pairwise_map] at hapart
    have hno := not_of_subperm (fun h => h.symm) hapart
      ((perm_of_sorted hsorted).symm.subperm_left.1 hmn) a hm
    rw [hna] at hno
    exact Bool.noConfusion hno

end Sorted

/-- How a map can fail to be made of entries, each of which may hold addresses of an interval. -/
structure FailsOnOverlap (range : α → Interval) (holds : α → Address → Prop)
    (make : List α → Captured → ModuleList → Except SnapshotFault RegionMap) : Prop where
  /-- It fails exactly if two entries at different places hold one address. -/
  fails : ∀ entries captured modules,
    (∃ fault, make entries captured modules = .error fault) ↔
      ∃ e f, [e, f].Subperm entries ∧ ∃ a, holds e a ∧ holds f a
  /-- It names two such entries. -/
  named : ∀ entries captured modules fault, make entries captured modules = .error fault →
    ∃ e f, [e, f].Subperm entries ∧ (∃ a, holds e a ∧ holds f a) ∧
      fault = .corruptMemoryMap (range e) (range f)
  order : ∀ entries others captured modules, others.Perm entries →
    make others captured modules = make entries captured modules
  /-- Only the entries make it fail. -/
  alone : ∀ entries captured captured' modules modules' fault,
    make entries captured modules = .error fault ↔ make entries captured' modules' = .error fault

theorem build_of_listed? {maps : Option (List MapsEntry)} {info : Option (List MemoryInfo)}
    {source : RegionSource} (h : listed? maps info = some (source, mappings))
    (captured : Captured) (modules : ModuleList) :
    build maps info captured modules = (sorted mappings).map fun listed =>
      ⟨source, (listed ++ unlisted captured modules listed).mergeSort
        fun m n => m.range.start ≤ n.range.start⟩ := by
  simp only [build, h]
  rfl

/-- Entries of any kind are refused alike, as far as they are listed alike. -/
theorem failsOnOverlap_of_listed? {range : α → Interval} {holds : α → Address → Prop}
    {mapping? : α → Option Mapping} (source : RegionSource)
    {maps : List α → Option (List MapsEntry)} {info : List α → Option (List MemoryInfo)}
    (hholds : ∀ e a, holds e a ↔ ∃ m, mapping? e = some m ∧ m.range.contains a = true)
    (hrange : ∀ e m, mapping? e = some m → m.range = range e ∧ m.range.isEmpty = false)
    (hlisted : ∀ entries, listed? (maps entries) (info entries) =
      some (source, entries.filterMap mapping?)) :
    FailsOnOverlap range holds fun entries => build (maps entries) (info entries) := by
  have hn : ∀ entries : List α, ∀ m ∈ entries.filterMap mapping?, m.range.isEmpty = false := by
    intro entries m hm
    obtain ⟨e, _, he⟩ := List.mem_filterMap.1 hm
    exact (hrange e m he).2
  have hnamed : ∀ entries captured modules fault,
      build (maps entries) (info entries) captured modules = .error fault →
      ∃ e f, [e, f].Subperm entries ∧ (∃ a, holds e a ∧ holds f a) ∧
        fault = .corruptMemoryMap (range e) (range f) := by
    intro entries captured modules fault h
    rw [build_of_listed? (hlisted entries), map_eq_error] at h
    obtain ⟨m, n, hmn, ⟨a, hma, hna⟩, rfl⟩ := exists_of_sorted_eq_error (hn entries) h
    obtain ⟨e, f, hef, he, hf⟩ := exists_subperm_of_filterMap hmn
    refine ⟨e, f, hef, ⟨a, (hholds e a).2 ⟨m, he, hma⟩, (hholds f a).2 ⟨n, hf, hna⟩⟩, ?_⟩
    rw [(hrange e m he).1, (hrange f n hf).1]
  refine ⟨fun entries captured modules => ⟨?_, ?_⟩, hnamed, ?_, ?_⟩
  · rintro ⟨fault, h⟩
    obtain ⟨e, f, hef, hshared, _⟩ := hnamed entries captured modules fault h
    exact ⟨e, f, hef, hshared⟩
  · rintro ⟨e, f, hef, a, hea, hfa⟩
    obtain ⟨m, he, hma⟩ := (hholds e a).1 hea
    obtain ⟨n, hf, hna⟩ := (hholds f a).1 hfa
    obtain ⟨fault, h⟩ := exists_sorted_eq_error (hn entries) (subperm_filterMap hef he hf) hma hna
    exact ⟨fault, by rw [build_of_listed? (hlisted entries), map_eq_error, h]⟩
  · intro entries others captured modules hp
    simp only [build_of_listed? (hlisted _), sorted_of_perm (hn entries) (hp.filterMap mapping?)]
  · intro entries captured captured' modules modules' fault
    simp only [build_of_listed? (hlisted entries), map_eq_error]

/-- A map is refused exactly for two listed entries that hold one address, and names two such
entries. The order of a list is of no account, nor is what was captured, which alone is never
refused. -/
theorem overlaps_exact :
    (∀ info, FailsOnOverlap MapsEntry.range (fun entry a => entry.range.contains a = true)
      fun entries => build (some entries) info) ∧
    FailsOnOverlap MemoryInfo.pages MemoryInfo.Holds (fun entries => build none (some entries)) ∧
    ∀ captured modules, Captured.Reachable captured →
      ∃ map, build none none captured modules = .ok map := by
  refine ⟨fun info => ?_, ?_, fun captured modules h => ?_⟩
  · exact failsOnOverlap_of_listed? .linuxMaps (fun _ _ => MapsEntry.contains_iff)
      (fun _ _ h => ⟨MapsEntry.range_of_mapping? h, MapsEntry.isEmpty_of_mapping? h⟩) fun _ => rfl
  · exact failsOnOverlap_of_listed? .memoryInfo (fun _ _ => MemoryInfo.holds_iff)
      (fun _ _ h => ⟨MemoryInfo.range_of_mapping? h, MemoryInfo.isEmpty_of_mapping? h⟩)
      fun _ => rfl
  · exact ⟨_, build_of_captured h.wellFormed.separated⟩

/-- Entries that overlap with others between them: an empty one, a free one, one that wraps. -/
theorem overlaps_exact_nested :
    let line (start stop : UInt64) : MapsEntry := ⟨⟨⟨start⟩, ⟨stop⟩⟩, .readOnly, true, 0, none⟩
    let pages (base size : UInt64) (state : UInt32) : MemoryInfo :=
      ⟨base, 0, 0, 0, size, state, 4, 0, 0⟩
    let lines := [line 0x1000 0x4000, line 0x2000 0x2000, line 0x2000 0x3000]
    let info := [pages 0x1000 0x1000 MemoryInfo.committed, pages 0x1000 0x1000 MemoryInfo.free,
      pages 0xffffffffffffffff 1 MemoryInfo.committed, pages 0x1800 1 MemoryInfo.committed]
    (∃ e f, build (some lines) none .empty ⟨[]⟩ = .error (.corruptMemoryMap e f)) ∧
    build (some lines.reverse) none .empty ⟨[]⟩ = build (some lines) none .empty ⟨[]⟩ ∧
    (∃ e f, build none (some info) .empty ⟨[]⟩ = .error (.corruptMemoryMap e f)) ∧
    ∃ map, build none none .empty ⟨[]⟩ = .ok map := by
  intro line pages lines info
  obtain ⟨hlines, hinfo, halone⟩ := overlaps_exact
  refine ⟨?_, (hlines none).order _ _ .empty ⟨[]⟩ (List.reverse_perm lines), ?_,
    halone .empty ⟨[]⟩ .empty⟩
  · have hpair : [line 0x1000 0x4000, line 0x2000 0x3000].Subperm lines := by
      apply List.Sublist.subperm
      decide
    obtain ⟨fault, hfault⟩ := ((hlines none).fails lines .empty ⟨[]⟩).2
      ⟨_, _, hpair, ⟨0x2000⟩, by decide, by decide⟩
    obtain ⟨e, f, _, _, rfl⟩ := (hlines none).named _ _ _ _ hfault
    exact ⟨_, _, hfault⟩
  · have hpair : [pages 0x1000 0x1000 MemoryInfo.committed,
        pages 0x1800 1 MemoryInfo.committed].Subperm info := by
      apply List.Sublist.subperm
      decide
    obtain ⟨fault, hfault⟩ := (hinfo.fails info .empty ⟨[]⟩).2
      ⟨_, _, hpair, ⟨0x1800⟩, ⟨by decide, by decide, by decide⟩, by decide, by decide, by decide⟩
    obtain ⟨e, f, _, _, rfl⟩ := hinfo.named _ _ _ _ hfault
    exact ⟨_, _, hfault⟩

end RegionMap
end CrashDump

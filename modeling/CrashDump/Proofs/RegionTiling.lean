import CrashDump.Proofs.CapturedBuild
import CrashDump.Proofs.RegionBuild

/-!
# Tiling the address space

The regions of a map, listed ones and gaps, follow one another from the lowest address to the
highest: whoever goes from the end of each region to the next meets every mapping once.
-/
namespace CrashDump

namespace Interval

/-- Intervals that hold addresses and follow one another, each where the one before it ends. -/
def Tiles (stop : Address) : Address → List Interval → Prop
  | a, [] => a = stop
  | a, r :: rest => r.start = a ∧ r.isEmpty = false ∧ Tiles stop r.stop rest

namespace Tiles

variable {stop a b : Address} {ranges : List Interval}

theorem le_stop (h : Tiles stop a ranges) : a ≤ stop := by
  induction ranges generalizing a with
  | nil =>
    obtain rfl : a = stop := h
    exact Nat.le_refl _
  | cons r rest ih =>
    obtain ⟨rfl, hr, hrest⟩ := h
    have hle := ih hrest
    rw [isEmpty_eq_false_iff] at hr
    rw [Address.le_def] at hle ⊢
    omega

theorem within (h : Tiles stop a ranges) : Within a stop ranges := by
  induction ranges generalizing a with
  | nil => exact ⟨Separated.nil, by simp⟩
  | cons r rest ih =>
    obtain ⟨rfl, hr, hrest⟩ := h
    obtain ⟨hsep, hbounds⟩ := ih hrest
    have hstop := hrest.le_stop
    rw [isEmpty_eq_false_iff] at hr
    refine ⟨Separated.cons_iff.2 ⟨isEmpty_eq_false_iff.2 hr, fun s hs => (hbounds s hs).1, hsep⟩, ?_⟩
    intro p hp
    rcases List.mem_cons.1 hp with rfl | hp
    · exact ⟨Nat.le_refl _, hstop⟩
    · obtain ⟨hstart, hend⟩ := hbounds p hp
      rw [Address.le_def] at hstart
      exact ⟨Address.le_def.2 (by omega), hend⟩

theorem exists_contains (h : Tiles stop a ranges) (ha : a ≤ b) (hb : b < stop) :
    ∃ r ∈ ranges, r.contains b = true := by
  induction ranges generalizing a with
  | nil =>
    obtain rfl : a = stop := h
    rw [Address.le_def] at ha
    rw [Address.lt_def] at hb
    omega
  | cons r rest ih =>
    obtain ⟨rfl, _, hrest⟩ := h
    by_cases hlt : b < r.stop
    · exact ⟨r, by simp, contains_iff.2 ⟨ha, hlt⟩⟩
    · obtain ⟨s, hs, hsb⟩ := ih hrest (Nat.le_of_not_lt hlt)
      exact ⟨s, by simp [hs], hsb⟩

end Tiles
end Interval

namespace RegionMap

variable {map : RegionMap} {front back : List Mapping} {m : Mapping} {a : Address}

/-- Where the last of some mappings ends, or the lowest address. -/
def lastStop (front : List Mapping) : Address :=
  front.getLast?.elim Address.zero fun m => m.range.stop

/-- Where the first of some mappings starts, or the highest address. -/
def firstStart (back : List Mapping) : Address := back.head?.elim Address.top fun m => m.range.start

/-- The end of the region of an address. -/
def jump (map : RegionMap) (a : Address) : Address := (map.regionAt a).range.stop

/-- The regions met in a number of jumps. -/
def tour (map : RegionMap) : Nat → Address → List Region
  | 0, _ => []
  | k + 1, a => map.regionAt a :: map.tour k (map.jump a)

theorem regionAt_of_split (hs : map.mappings = front ++ back)
    (hf : ∀ m ∈ front, m.range.stop ≤ a) (hb : ∀ m ∈ back, a < m.range.stop) :
    map.regionAt a = (back.head?.filter fun m => m.range.start ≤ a).elim
      (.gap ⟨lastStop front, firstStart back⟩) .mapping := by
  have hindex : Search.boundary (fun m => decide (m.range.stop ≤ a)) map.mappings.toArray =
      front.length := by
    rw [hs]
    refine Search.boundary_append (by simpa using hf) fun m hm => ?_
    have := hb m hm
    rw [Address.lt_def] at this
    simpa [Address.le_def] using this
  have hget : map.mappings[front.length]? = back.head? := by
    rw [hs, List.getElem?_append_right (Nat.le_refl _), Nat.sub_self, List.head?_eq_getElem?]
  have htake : map.mappings.take front.length = front := by
    rw [hs, List.take_left]
  simp only [regionAt, hindex, hget, htake, lastStop, firstStart]
  cases back.head?.filter fun m => m.range.start ≤ a with
  | none => rfl
  | some m => rfl

section Separated

variable (h : Interval.Separated map.ranges)
include h

theorem separated_split (hs : map.mappings = front ++ back) :
    Interval.Separated (front.map Mapping.range) ∧ Interval.Separated (back.map Mapping.range) ∧
      ∀ m ∈ front, ∀ n ∈ back, m.range.stop ≤ n.range.start := by
  rw [ranges, hs, List.map_append, Interval.Separated.append_iff] at h
  simpa using h

theorem stop_le_stopOf (hs : map.mappings = front ++ back) :
    ∀ m ∈ front, m.range.stop ≤ lastStop front := by
  have hsep := (separated_split h hs).1
  intro m hm
  unfold lastStop
  cases hl : front.getLast? with
  | none =>
    rw [List.getLast?_eq_none_iff] at hl
    simp [hl] at hm
  | some last =>
    obtain ⟨init, rfl⟩ := List.getLast?_eq_some_iff.1 hl
    rw [List.map_append] at hsep
    obtain ⟨_, hlast, hc⟩ := Interval.Separated.append_iff.1 hsep
    rcases List.mem_append.1 hm with hm | hm
    · have hle := hc m.range (List.mem_map_of_mem hm) last.range (by simp)
      have hne := Interval.isEmpty_eq_false_iff.1 (hlast.nonempty last.range (by simp))
      rw [Address.le_def] at hle
      exact Address.le_def.2 (by simp only [Option.elim_some]; omega)
    · obtain rfl : m = last := by simpa using hm
      exact Nat.le_refl _

theorem stopOf_le (hs : map.mappings = front ++ back) :
    ∀ m ∈ back, lastStop front ≤ m.range.start := by
  intro m hm
  unfold lastStop
  cases hl : front.getLast? with
  | none => exact Nat.zero_le _
  | some last => exact (separated_split h hs).2.2 last (List.mem_of_getLast? hl) m hm

theorem startOf_le (hs : map.mappings = front ++ back) :
    ∀ m ∈ back, firstStart back ≤ m.range.start := by
  intro m hm
  have hsep := (separated_split h hs).2.1
  cases back with
  | nil => simp at hm
  | cons n rest =>
    obtain ⟨hn, hrest, _⟩ := Interval.Separated.cons_iff.1 hsep
    change n.range.start ≤ m.range.start
    rcases List.mem_cons.1 hm with rfl | hm
    · exact Nat.le_refl _
    · have hle := hrest m.range (List.mem_map_of_mem hm)
      rw [Interval.isEmpty_eq_false_iff] at hn
      rw [Address.le_def] at hle ⊢
      omega

theorem regionAt_eq_mapping (hm : m ∈ map.mappings) (ha : m.range.contains a = true) :
    map.regionAt a = .mapping m := by
  obtain ⟨front, back, hs, _, hf, hb⟩ := h.exists_boundary a
  have hc := Interval.contains_iff.1 ha
  rw [hs] at hm
  rcases List.mem_append.1 hm with hm | hm
  · have hle := hf m hm
    rw [Address.le_def] at hle
    omega
  · cases back with
    | nil => simp at hm
    | cons n rest =>
      have hstart : m.range.start ≤ a := hc.1
      have hsep := (separated_split h hs).2.1
      obtain rfl : m = n := hsep.eq_head (hb n (by simp)) hm hstart
      rw [regionAt_of_split hs hf hb, List.head?_cons, Option.filter_some, if_pos (by simpa)]
      rfl

theorem regionAt_eq_gap (hs : map.mappings = front ++ back) (hf : lastStop front ≤ a)
    (hb : a < firstStart back) : map.regionAt a = .gap ⟨lastStop front, firstStart back⟩ := by
  have hfront : ∀ m ∈ front, m.range.stop ≤ a := fun m hm =>
    Nat.le_trans (stop_le_stopOf h hs m hm) hf
  have hstart : ∀ m ∈ back, a < m.range.start := fun m hm =>
    Nat.lt_of_lt_of_le hb (startOf_le h hs m hm)
  have hback : ∀ m ∈ back, a < m.range.stop := by
    intro m hm
    have hne := (separated_split h hs).2.1.nonempty m.range (List.mem_map_of_mem hm)
    have hlt := hstart m hm
    rw [Interval.isEmpty_eq_false_iff] at hne
    rw [Address.lt_def] at hlt ⊢
    omega
  have hnone : (back.head?.filter fun m => decide (m.range.start ≤ a)) = none := by
    rw [Option.filter_eq_none_iff]
    intro m hm
    have hlt := hstart m (List.mem_of_mem_head? hm)
    rw [Address.lt_def] at hlt
    simpa [Address.le_def] using hlt
  rw [regionAt_of_split hs hfront hback, hnone]
  rfl

/-- An address is in a mapping, or between two neighbours. -/
theorem regionAt_cases (ha : a < Address.top) :
    (∃ m ∈ map.mappings, m.range.contains a = true ∧ map.regionAt a = .mapping m) ∨
      ∃ front back, map.mappings = front ++ back ∧ lastStop front ≤ a ∧ a < firstStart back ∧
        map.regionAt a = .gap ⟨lastStop front, firstStart back⟩ := by
  obtain ⟨front, back, hs, _, hf, hb⟩ := h.exists_boundary a
  have hstop : lastStop front ≤ a := by
    unfold lastStop
    cases hl : front.getLast? with
    | none => exact Nat.zero_le _
    | some last => exact hf last (List.mem_of_getLast? hl)
  by_cases hlt : a < firstStart back
  · exact .inr ⟨front, back, hs, hstop, hlt, regionAt_eq_gap h hs hstop hlt⟩
  · left
    cases back with
    | nil => exact absurd ha hlt
    | cons m rest =>
      have hm : m ∈ map.mappings := by simp [hs]
      have hc : m.range.contains a = true :=
        Interval.contains_iff.2 ⟨Nat.le_of_not_lt hlt, hb m (by simp)⟩
      exact ⟨m, hm, hc, regionAt_eq_mapping h hm hc⟩

theorem gap_apart (hs : map.mappings = front ++ back) :
    ∀ m ∈ map.mappings, m.range.Apart ⟨lastStop front, firstStart back⟩ := by
  intro m hm a ha
  rw [Interval.contains_iff] at ha
  rw [Interval.contains_eq_false_iff]
  rw [hs] at hm
  rcases List.mem_append.1 hm with hm | hm
  · have hle := stop_le_stopOf h hs m hm
    rw [Address.le_def] at hle
    exact .inl (Nat.lt_of_lt_of_le ha.2 hle)
  · have hle := startOf_le h hs m hm
    rw [Address.le_def] at hle
    exact .inr (Nat.le_trans hle ha.1)

/-- The region of an address is mapped exactly if a mapping holds the address. -/
theorem isMapped_regionAt :
    (map.regionAt a).isMapped = true ↔ ∃ m ∈ map.mappings, m.range.contains a = true := by
  constructor
  · intro hmapped
    obtain ⟨front, back, hs, _, hf, hb⟩ := h.exists_boundary a
    rw [regionAt_of_split hs hf hb] at hmapped
    cases hhead : back.head?.filter fun m => decide (m.range.start ≤ a) with
    | none =>
      rw [hhead] at hmapped
      exact Bool.noConfusion hmapped
    | some m =>
      obtain ⟨hm, hstart⟩ := Option.filter_eq_some_iff.1 hhead
      have hmem := List.mem_of_mem_head? hm
      exact ⟨m, by simp [hs, hmem], Interval.contains_iff.2 ⟨of_decide_eq_true hstart, hb m hmem⟩⟩
  · rintro ⟨m, hm, hc⟩
    rw [regionAt_eq_mapping h hm hc]
    rfl

theorem contains_regionAt (ha : a < Address.top) :
    (map.regionAt a).range.contains a = true := by
  rcases regionAt_cases h ha with ⟨m, _, hc, hm⟩ | ⟨front, back, _, hstop, hstart, hgap⟩
  · rw [hm]
    exact hc
  · rw [hgap]
    exact Interval.contains_iff.2 ⟨hstop, hstart⟩

end Separated

/-- A way of `k` jumps from an address to the highest one, through the given regions. -/
structure Trip (map : RegionMap) (k : Nat) (a : Address) (visited : List Region) : Prop where
  reaches : map.jump^[k] a = Address.top
  early : ∀ j < k, map.jump^[j] a < Address.top
  tour_eq : map.tour k a = visited
  tiles : Interval.Tiles Address.top a (visited.map Region.range)

theorem Trip.nil (map : RegionMap) : Trip map 0 Address.top [] :=
  ⟨rfl, by simp, rfl, rfl⟩

theorem Trip.step {k : Nat} {visited : List Region} {region : Region}
    (hregion : map.regionAt a = region) (hstart : region.range.start = a)
    (hn : region.range.isEmpty = false) (trip : Trip map k region.range.stop visited) :
    Trip map (k + 1) a (region :: visited) := by
  have hjump : map.jump a = region.range.stop := by rw [jump, hregion]
  refine ⟨?_, ?_, ?_, hstart, hn, trip.tiles⟩
  · rw [Function.iterate_succ_apply, hjump]
    exact trip.reaches
  · intro j hj
    cases j with
    | zero =>
      have htop := region.range.stop.toNat_lt
      rw [Interval.isEmpty_eq_false_iff, hstart] at hn
      rw [Function.iterate_zero_apply, Address.lt_def, Address.toNat_top]
      omega
    | succ j =>
      rw [Function.iterate_succ_apply, hjump]
      exact trip.early j (by omega)
  · rw [tour, hregion, hjump, trip.tour_eq]

/-- From the end of a mapping the way leads through all mappings after it. -/
theorem exists_trip (h : Interval.Separated map.ranges) (hs : map.mappings = front ++ back) :
    ∃ k ≤ 2 * back.length + 1, ∃ visited, Trip map k (lastStop front) visited ∧
      visited.filter Region.isMapped = back.map Region.mapping := by
  induction back generalizing front with
  | nil =>
    by_cases htop : lastStop front = Address.top
    · rw [htop]
      exact ⟨0, Nat.zero_le _, [], Trip.nil map, rfl⟩
    · have hlt : lastStop front < firstStart [] := by
        have hle := (lastStop front).toNat_lt
        rw [← Address.toNat_inj, Address.toNat_top] at htop
        change (lastStop front).toNat < UInt64.size - 1
        omega
      have hgap := regionAt_eq_gap h hs (Nat.le_refl _) hlt
      refine ⟨1, Nat.le_refl _, _, (Trip.nil map).step hgap rfl ?_, rfl⟩
      exact Interval.isEmpty_eq_false_iff.2 hlt
  | cons m rest ih =>
    have hs' : map.mappings = (front ++ [m]) ++ rest := by simp [hs]
    have hm : m ∈ map.mappings := by simp [hs]
    have hn : m.range.isEmpty = false := h.nonempty m.range (List.mem_map_of_mem hm)
    have hstop : lastStop (front ++ [m]) = m.range.stop := by simp [lastStop]
    obtain ⟨k, hk, visited, trip, hvisited⟩ := ih hs'
    rw [hstop] at trip
    have hmapping := regionAt_eq_mapping h hm (Interval.contains_start hn)
    have htrip : Trip map (k + 1) m.range.start (.mapping m :: visited) :=
      trip.step hmapping rfl hn
    have hlisted : (Region.mapping m :: visited).filter Region.isMapped =
        (m :: rest).map Region.mapping := by
      rw [List.filter_cons_of_pos rfl, hvisited, List.map_cons]
    rcases Nat.lt_or_ge (lastStop front).toNat m.range.start.toNat with hlt | hge
    · have hgap := regionAt_eq_gap h hs (Nat.le_refl _)
        (show lastStop front < firstStart _ from hlt)
      refine ⟨k + 2, ?_, _, htrip.step hgap rfl (Interval.isEmpty_eq_false_iff.2 hlt), ?_⟩
      · rw [List.length_cons]
        omega
      · rw [List.filter_cons_of_neg Bool.false_ne_true, hlisted]
    · have hle := stopOf_le h hs m (by simp)
      obtain heq : lastStop front = m.range.start := Address.ext_toNat (Nat.le_antisymm hle hge)
      rw [heq]
      refine ⟨k + 1, ?_, _, htrip, hlisted⟩
      rw [List.length_cons]
      omega

/-- The regions of a map that was built tile the address space. -/
theorem regions_tile {maps : Option (List MapsEntry)} {info : Option (List MemoryInfo)}
    {captured : Captured} {modules : ModuleList} (hc : captured.Reachable)
    (hmap : build maps info captured modules = .ok map) :
    (map.mappings.Pairwise fun m n => m.range.start < n.range.start) ∧
    (∀ m ∈ map.mappings, m.range.isEmpty = false) ∧
    (map.mappings.Pairwise fun m n => m.range.Apart n.range) ∧
    (∀ a < Address.top,
      (map.regionAt a).range.contains a = true ∧
      ((map.regionAt a).isMapped = true ↔ ∃ m ∈ map.mappings, m.range.contains a = true) ∧
      (∀ m ∈ map.mappings, m.range.contains a = true → map.regionAt a = .mapping m) ∧
      ((map.regionAt a).isMapped = false →
        (map.regionAt a).permissions = .noAccess ∧ (map.regionAt a).name = none ∧
        (∀ m ∈ map.mappings, m.range.Apart (map.regionAt a).range) ∧
        ∃ front back, map.mappings = front ++ back ∧ (∀ m ∈ front, m.range.stop ≤ a) ∧
          (∀ m ∈ back, a < m.range.start) ∧
          (map.regionAt a).range = ⟨lastStop front, firstStart back⟩)) ∧
    ∃ k ≤ 2 * map.mappings.length + 1,
      map.jump^[k] Address.zero = Address.top ∧
      (∀ j < k, map.jump^[j] Address.zero < Address.top) ∧
      (map.tour k Address.zero).filter Region.isMapped = map.mappings.map Region.mapping ∧
      ((map.tour k Address.zero).Pairwise fun r s => r.range.Apart s.range) ∧
      ∀ a < Address.top, ∃ r ∈ map.tour k Address.zero, r.range.contains a = true := by
  have h := build_separated hc.wellFormed.separated hmap
  have hascending := h.ascending
  have hapart := h.pairwise_apart
  rw [ranges, List.pairwise_map] at hascending hapart
  refine ⟨hascending, List.forall_mem_map.1 h.nonempty, hapart, fun a ha => ?_, ?_⟩
  · refine ⟨contains_regionAt h ha, isMapped_regionAt h,
      fun m hm hc => regionAt_eq_mapping h hm hc, fun hno => ?_⟩
    rcases regionAt_cases h ha with ⟨m, _, _, hm⟩ | ⟨front, back, hs, hstop, hstart, hgap⟩
    · rw [hm] at hno
      exact Bool.noConfusion hno
    · rw [hgap]
      refine ⟨rfl, rfl, gap_apart h hs, front, back, hs, ?_, ?_, rfl⟩
      · exact fun m hm => Nat.le_trans (stop_le_stopOf h hs m hm) hstop
      · exact fun m hm => Nat.lt_of_lt_of_le hstart (startOf_le h hs m hm)
  · have hs : map.mappings = [] ++ map.mappings := rfl
    obtain ⟨k, hk, visited, trip, hvisited⟩ := exists_trip h hs
    obtain rfl := trip.tour_eq
    have hpairwise := trip.tiles.within.separated.pairwise_apart
    rw [List.pairwise_map] at hpairwise
    refine ⟨k, hk, trip.reaches, trip.early, hvisited, hpairwise, fun a ha => ?_⟩
    obtain ⟨range, hrange, hcontains⟩ := trip.tiles.exists_contains (Nat.zero_le _) ha
    obtain ⟨region, hregion, rfl⟩ := List.mem_map.1 hrange
    exact ⟨region, hregion, hcontains⟩

/-- Two listed mappings, and captured memory that goes on where the first of them ends. -/
theorem regions_tile_maps :
    let code : MapsEntry := ⟨⟨⟨0x1000⟩, ⟨0x2000⟩⟩, ⟨true, false, true⟩, true, 0, some "/bin/a"⟩
    let stack : MapsEntry := ⟨⟨⟨0x3000⟩, ⟨0x4000⟩⟩, ⟨true, true, false⟩, true, 0, none⟩
    let captured := Captured.empty.add ⟨⟨⟨0x1fff⟩, ⟨0x2001⟩⟩, Buffer.ofBytes [1, 2]⟩
    ∃ map, build (some [stack, code]) none captured ⟨[]⟩ = .ok map ∧
      map.mappings = [⟨code.range, code.permissions, code.path⟩,
        ⟨⟨⟨0x2000⟩, ⟨0x2001⟩⟩, .readOnly, none⟩, ⟨stack.range, stack.permissions, none⟩] ∧
      (map.mappings.Pairwise fun m n => m.range.Apart n.range) ∧
      (map.regionAt ⟨0x2345⟩).range.contains ⟨0x2345⟩ = true ∧
      ∃ k ≤ 7, map.jump^[k] Address.zero = Address.top := by
  intro code stack captured
  have hc : captured.Reachable := .add .empty (by decide)
  have hmap : build (some [stack, code]) none captured ⟨[]⟩ = .ok ⟨.linuxMaps,
      [⟨code.range, code.permissions, code.path⟩, ⟨⟨⟨0x2000⟩, ⟨0x2001⟩⟩, .readOnly, none⟩,
        ⟨stack.range, stack.permissions, none⟩]⟩ := by
    cbv
  obtain ⟨_, _, hapart, hat, k, hk, hreaches, _⟩ := regions_tile hc hmap
  exact ⟨_, hmap, rfl, hapart, (hat ⟨0x2345⟩ (by decide)).1, k, hk, hreaches⟩

end RegionMap
end CrashDump

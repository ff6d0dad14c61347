import CrashDump.Proofs.Separation

/-!
# Unions of intervals

Sorted intervals are joined wherever one starts inside the one before it or at its end. What comes
out holds the same addresses, with a gap between any two.
-/
namespace CrashDump.Interval

/-- No interval is reversed, and each ends before the next starts. -/
structure Spaced (ranges : List Interval) : Prop where
  upright : ∀ r ∈ ranges, r.start ≤ r.stop
  gaps : ranges.Pairwise fun r s => r.stop < s.start

namespace Spaced

variable {ranges : List Interval} {place a : Address}

theorem ascending (h : Spaced ranges) : ranges.Pairwise fun r s => r.start ≤ s.start := by
  refine h.gaps.imp_of_mem fun {r s} hr _ hgap => ?_
  have hup := h.upright r hr
  rw [Address.le_def] at hup ⊢
  rw [Address.lt_def] at hgap
  omega

/-- What the search leaves away ends at or before the place, so it holds nothing from there on. -/
theorem exists_contains_dropPassing (h : Spaced ranges) (hp : place ≤ a) :
    (∃ r ∈ Search.dropPassing (fun r => r.stop ≤ place) ranges, r.contains a = true) ↔
      ∃ r ∈ ranges, r.contains a = true := by
  have hmono : ranges.Pairwise fun r s =>
      decide (s.stop ≤ place) = true → decide (r.stop ≤ place) = true := by
    refine h.gaps.imp_of_mem fun {r s} _ hs hgap hle => ?_
    have hup := h.upright s hs
    rw [Address.lt_def] at hgap
    rw [Address.le_def] at hup
    rw [decide_eq_true_eq, Address.le_def] at hle ⊢
    omega
  obtain ⟨front, back, rfl, hi, hf, _⟩ := Search.exists_boundary hmono
  rw [Search.dropPassing, hi, List.drop_left]
  constructor
  · rintro ⟨r, hr, hc⟩
    exact ⟨r, List.mem_append_right _ hr, hc⟩
  · rintro ⟨r, hr, hc⟩
    rcases List.mem_append.1 hr with hr | hr
    · have hle := hf r hr
      rw [decide_eq_true_eq, Address.le_def] at hle
      rw [Address.le_def] at hp
      rw [contains_iff] at hc
      omega
    · exact ⟨r, hr, hc⟩

theorem dropPassing (h : Spaced ranges) (test : Interval → Bool) :
    Spaced (Search.dropPassing test ranges) :=
  ⟨fun r hr => h.upright r (List.mem_of_mem_drop hr), h.gaps.sublist (List.drop_sublist _ _)⟩

end Spaced

variable {first : Interval} {rest ranges : List Interval} {a : Address}

/-- Where an interval takes in the next one it still starts before all others. -/
theorem pairwise_joined {r : Interval} (stop : Address)
    (h : (first :: r :: rest).Pairwise fun r s => r.start ≤ s.start) :
    (Interval.mk first.start stop :: rest).Pairwise fun r s => r.start ≤ s.start := by
  obtain ⟨hfirst, hrest⟩ := List.pairwise_cons.1 h
  exact List.pairwise_cons.2 ⟨fun s hs => hfirst s (List.mem_cons_of_mem r hs), hrest.of_cons⟩

theorem start_le_of_mem_mergeFrom (h : (first :: rest).Pairwise fun r s => r.start ≤ s.start) :
    ∀ r ∈ mergeFrom first rest, first.start ≤ r.start := by
  fun_induction mergeFrom first rest with
  | case1 first =>
    intro r hr
    rw [List.mem_singleton.1 hr]
    exact Nat.le_refl _
  | case2 first r rest hjoin ih => exact ih (pairwise_joined _ h)
  | case3 first r rest hgap ih =>
    obtain ⟨hfirst, hrest⟩ := List.pairwise_cons.1 h
    intro s hs
    rcases List.mem_cons.1 hs with rfl | hs
    · exact Nat.le_refl _
    · exact Nat.le_trans (hfirst r (by simp)) (ih hrest s hs)

theorem mergeFrom_gaps (h : (first :: rest).Pairwise fun r s => r.start ≤ s.start) :
    (mergeFrom first rest).Pairwise fun r s => r.stop < s.start := by
  fun_induction mergeFrom first rest with
  | case1 first => exact List.pairwise_singleton ..
  | case2 first r rest hjoin ih => exact ih (pairwise_joined _ h)
  | case3 first r rest hgap ih =>
    obtain ⟨_, hrest⟩ := List.pairwise_cons.1 h
    refine List.pairwise_cons.2 ⟨fun s hs => ?_, ih hrest⟩
    have hle := start_le_of_mem_mergeFrom hrest s hs
    rw [Address.le_def] at hgap hle
    exact Address.lt_def.2 (by omega)

theorem mergeFrom_starts (h : (first :: rest).Pairwise fun r s => r.start ≤ s.start) :
    (mergeFrom first rest).Pairwise fun r s => r.start ≤ s.start := by
  fun_induction mergeFrom first rest with
  | case1 first => exact List.pairwise_singleton ..
  | case2 first r rest hjoin ih => exact ih (pairwise_joined _ h)
  | case3 first r rest hgap ih =>
    obtain ⟨hfirst, hrest⟩ := List.pairwise_cons.1 h
    refine List.pairwise_cons.2 ⟨fun s hs => ?_, ih hrest⟩
    exact Nat.le_trans (hfirst r (by simp)) (start_le_of_mem_mergeFrom hrest s hs)

theorem mergeFrom_upright (h : ∀ r ∈ first :: rest, r.start ≤ r.stop) :
    ∀ r ∈ mergeFrom first rest, r.start ≤ r.stop := by
  fun_induction mergeFrom first rest with
  | case1 first => exact h
  | case2 first r rest hjoin ih =>
    refine ih fun s hs => ?_
    rcases List.mem_cons.1 hs with rfl | hs
    · have hup := h first (by simp)
      change first.start.toNat ≤ (max first.stop r.stop).toNat
      rw [Address.le_def] at hup
      rw [Address.toNat_max]
      omega
    · exact h s (by simp [hs])
  | case3 first r rest hgap ih =>
    intro s hs
    rcases List.mem_cons.1 hs with rfl | hs
    · exact h s (by simp)
    · exact ih (fun t ht => h t (List.mem_cons_of_mem _ ht)) s hs

/-- An interval that starts inside another one or at its end goes on where that one ends. -/
theorem contains_join {r s : Interval} (hs : r.start ≤ s.start) (hj : s.start ≤ r.stop) :
    (Interval.mk r.start (max r.stop s.stop)).contains a = true ↔
      r.contains a = true ∨ s.contains a = true := by
  rw [Address.le_def] at hs hj
  simp only [contains_iff, Address.toNat_max]
  omega

theorem contains_mergeFrom (h : (first :: rest).Pairwise fun r s => r.start ≤ s.start) :
    (∃ r ∈ mergeFrom first rest, r.contains a = true) ↔
      ∃ r ∈ first :: rest, r.contains a = true := by
  fun_induction mergeFrom first rest with
  | case1 first => rfl
  | case2 first r rest hjoin ih =>
    have hfirst := List.rel_of_pairwise_cons h List.mem_cons_self
    rw [ih (pairwise_joined _ h), List.exists_mem_cons_iff, contains_join hfirst hjoin,
      List.exists_mem_cons_iff, List.exists_mem_cons_iff, or_assoc]
  | case3 first r rest hgap ih =>
    rw [List.exists_mem_cons_iff, ih h.of_cons, List.exists_mem_cons_iff _ first]

theorem pairwise_sort (ranges : List Interval) :
    (sort ranges).Pairwise fun r s => r.start ≤ s.start :=
  (pairwise_mergeSort id ranges).imp start_le_of_precedes

/-- The union of some intervals is the pass over them from the one that starts first. -/
theorem union_cases (ranges : List Interval) : (ranges = [] ∧ union ranges = []) ∨
    ∃ first rest, (∀ r, r ∈ first :: rest ↔ r ∈ ranges) ∧
      ((first :: rest).Pairwise fun r s => r.start ≤ s.start) ∧
      union ranges = mergeFrom first rest := by
  have hmem : ∀ r, r ∈ sort ranges ↔ r ∈ ranges := fun r => List.mem_mergeSort
  have hsorted := pairwise_sort ranges
  unfold union
  cases hs : sort ranges with
  | nil =>
    rw [hs] at hmem
    exact .inl ⟨List.eq_nil_iff_forall_not_mem.2 fun r hr => List.not_mem_nil ((hmem r).2 hr), rfl⟩
  | cons first rest =>
    rw [hs] at hmem hsorted
    exact .inr ⟨first, rest, hmem, hsorted, rfl⟩

theorem contains_union :
    (∃ r ∈ union ranges, r.contains a = true) ↔ ∃ r ∈ ranges, r.contains a = true := by
  rcases union_cases ranges with ⟨rfl, hunion⟩ | ⟨first, rest, hmem, hsorted, hunion⟩
  · rw [hunion]
  · rw [hunion, contains_mergeFrom hsorted]
    simp only [hmem]

/-- Intervals of any kind come out sorted and with gaps, also those that are empty or reversed. -/
theorem pairwise_union (ranges : List Interval) :
    (union ranges).Pairwise fun r s => r.start ≤ s.start ∧ r.stop < s.start := by
  rcases union_cases ranges with ⟨_, hunion⟩ | ⟨first, rest, _, hsorted, hunion⟩
  · rw [hunion]
    exact List.Pairwise.nil
  · rw [hunion]
    exact (mergeFrom_starts hsorted).and (mergeFrom_gaps hsorted)

theorem spaced_union (h : ∀ r ∈ ranges, r.start ≤ r.stop) : Spaced (union ranges) := by
  refine ⟨?_, (pairwise_union ranges).imp fun hrs => hrs.2⟩
  rcases union_cases ranges with ⟨rfl, hunion⟩ | ⟨first, rest, hmem, _, hunion⟩
  · rwa [hunion]
  · rw [hunion]
    exact mergeFrom_upright fun r hr => h r ((hmem r).1 hr)

/-- Each interval holds addresses and leaves a gap before the next. -/
structure Canonical (ranges : List Interval) : Prop where
  nonempty : ∀ r ∈ ranges, r.isEmpty = false
  gaps : ranges.Pairwise fun r s => r.stop < s.start

namespace Canonical

variable {r s : Interval} {others : List Interval}

theorem of_cons (h : Canonical (r :: rest)) : Canonical rest :=
  ⟨fun s hs => h.nonempty s (List.mem_cons_of_mem r hs), h.gaps.of_cons⟩

theorem stop_lt_of_contains (h : Canonical (r :: rest))
    (ha : ∃ s ∈ rest, s.contains a = true) : r.stop.toNat < a.toNat := by
  obtain ⟨s, hs, ha⟩ := ha
  have hgap := List.rel_of_pairwise_cons h.gaps hs
  rw [Address.lt_def] at hgap
  rw [contains_iff] at ha
  omega

theorem start_le_of_contains (h : Canonical (r :: rest))
    (ha : ∃ s ∈ r :: rest, s.contains a = true) : r.start.toNat ≤ a.toNat := by
  have hr := isEmpty_eq_false_iff.1 (h.nonempty r List.mem_cons_self)
  rcases (List.exists_mem_cons_iff _ _ _).1 ha with ha | ha
  · exact (contains_iff.1 ha).1
  · have hlt := h.stop_lt_of_contains ha
    omega

theorem contains_tail_iff (h : Canonical (r :: rest)) :
    (∃ s ∈ rest, s.contains a = true) ↔
      (∃ s ∈ r :: rest, s.contains a = true) ∧ r.stop.toNat < a.toNat := by
  rw [List.exists_mem_cons_iff]
  constructor
  · intro ha
    exact ⟨.inr ha, h.stop_lt_of_contains ha⟩
  · rintro ⟨ha | ha, hlt⟩
    · rw [contains_iff] at ha
      omega
    · exact ha

/-- The first interval ends at a gap, so another one that starts with it goes no further. -/
theorem stop_le (h : Canonical (r :: rest)) (hstart : s.start.toNat = r.start.toNat)
    (hsub : ∀ a, s.contains a = true → ∃ t ∈ r :: rest, t.contains a = true) :
    s.stop.toNat ≤ r.stop.toNat := by
  by_contra hlt
  have hr := isEmpty_eq_false_iff.1 (h.nonempty r List.mem_cons_self)
  have hin : s.contains r.stop = true := contains_iff.2 (by omega)
  rcases (List.exists_mem_cons_iff _ _ _).1 (hsub r.stop hin) with ha | ha
  · exact Nat.lt_irrefl _ (contains_iff.1 ha).2
  · exact Nat.lt_irrefl _ (h.stop_lt_of_contains ha)

/-- The addresses that such intervals hold tell which ones they are. -/
theorem unique (h : Canonical ranges) (h' : Canonical others)
    (hsame : ∀ a, (∃ r ∈ ranges, r.contains a = true) ↔ ∃ r ∈ others, r.contains a = true) :
    ranges = others := by
  induction ranges generalizing others with
  | nil =>
    cases others with
    | nil => rfl
    | cons s others =>
      have hs := contains_start (h'.nonempty s List.mem_cons_self)
      obtain ⟨_, hnone, _⟩ := (hsame s.start).2 ⟨s, List.mem_cons_self, hs⟩
      exact absurd hnone List.not_mem_nil
  | cons r rest ih =>
    have hr := contains_start (h.nonempty r List.mem_cons_self)
    cases others with
    | nil =>
      obtain ⟨_, hnone, _⟩ := (hsame r.start).1 ⟨r, List.mem_cons_self, hr⟩
      exact absurd hnone List.not_mem_nil
    | cons s others =>
      have hs := contains_start (h'.nonempty s List.mem_cons_self)
      have hstart : r.start.toNat = s.start.toNat := Nat.le_antisymm
        (h.start_le_of_contains ((hsame s.start).2 ⟨s, List.mem_cons_self, hs⟩))
        (h'.start_le_of_contains ((hsame r.start).1 ⟨r, List.mem_cons_self, hr⟩))
      have hstop : r.stop.toNat = s.stop.toNat := Nat.le_antisymm
        (h'.stop_le hstart fun a ha => (hsame a).1 ⟨r, List.mem_cons_self, ha⟩)
        (h.stop_le hstart.symm fun a ha => (hsame a).2 ⟨s, List.mem_cons_self, ha⟩)
      obtain rfl : r = s := by
        cases r
        cases s
        rw [Interval.mk.injEq]
        exact ⟨Address.ext_toNat hstart, Address.ext_toNat hstop⟩
      rw [ih h.of_cons h'.of_cons fun a => ?_]
      rw [h.contains_tail_iff, h'.contains_tail_iff, hsame a]

end Canonical

theorem canonical_union (ranges : List Interval) :
    Canonical ((union ranges).filter fun r => !r.isEmpty) where
  nonempty r hr := by simpa using (List.mem_filter.1 hr).2
  gaps := ((pairwise_union ranges).imp fun h => h.2).sublist List.filter_sublist

theorem contains_filter (ranges : List Interval) (a : Address) :
    (∃ r ∈ ranges.filter fun r => !r.isEmpty, r.contains a = true) ↔
      ∃ r ∈ ranges, r.contains a = true := by
  constructor
  · rintro ⟨r, hr, ha⟩
    exact ⟨r, (List.mem_filter.1 hr).1, ha⟩
  · rintro ⟨r, hr, ha⟩
    have hin := contains_iff.1 ha
    have hn : r.isEmpty = false := isEmpty_eq_false_iff.2 (by omega)
    exact ⟨r, List.mem_filter.2 ⟨hr, by simp [hn]⟩, ha⟩

/-- Apart from empty intervals, what comes out is told by the addresses that go in. -/
theorem union_unique {others : List Interval}
    (h : ∀ a, (∃ r ∈ ranges, r.contains a = true) ↔ ∃ r ∈ others, r.contains a = true) :
    ((union ranges).filter fun r => !r.isEmpty) = (union others).filter fun r => !r.isEmpty := by
  refine (canonical_union ranges).unique (canonical_union others) fun a => ?_
  rw [contains_filter, contains_filter, contains_union, contains_union, h a]

end CrashDump.Interval

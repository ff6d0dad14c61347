import CrashDump.Memory.RegionMap
import CrashDump.Proofs.Separation

/-!
# Pieces of intervals

Cutting an interval gives pieces that lie inside it, hold addresses and are in order, so that the
pieces of separated intervals are separated as well.
-/
namespace CrashDump.Interval

/-- Separated pieces of the addresses from `place` to `stop`. -/
structure Within (place stop : Address) (pieces : List Interval) : Prop where
  separated : Separated pieces
  bounds : ∀ p ∈ pieces, place ≤ p.start ∧ p.stop ≤ stop

variable {place stop a : Address} {piece : Interval}

theorem mem_between : piece ∈ between place stop ↔ place < stop ∧ piece = ⟨place, stop⟩ := by
  unfold between
  split <;> simp_all

theorem contains_between :
    (∃ p ∈ between place stop, p.contains a = true) ↔ place ≤ a ∧ a < stop := by
  simp only [mem_between, contains_iff, Address.le_def, Address.lt_def]
  constructor
  · rintro ⟨p, ⟨_, rfl⟩, ha⟩
    exact ha
  · intro ha
    exact ⟨⟨place, stop⟩, ⟨by omega, rfl⟩, ha⟩

theorem exists_contains_append {front back : List Interval} :
    (∃ p ∈ front ++ back, p.contains a = true) ↔
      (∃ p ∈ front, p.contains a = true) ∨ ∃ p ∈ back, p.contains a = true := by
  simp only [List.mem_append, or_and_right, exists_or]

theorem between_within (place stop : Address) : Within place stop (between place stop) := by
  refine ⟨⟨?_, ?_⟩, ?_⟩
  · intro p hp
    obtain ⟨hlt, rfl⟩ := mem_between.1 hp
    exact isEmpty_eq_false_iff.2 hlt
  · unfold between
    split
    · exact List.pairwise_singleton ..
    · exact List.Pairwise.nil
  · intro p hp
    obtain ⟨_, rfl⟩ := mem_between.1 hp
    exact ⟨Nat.le_refl _, Nat.le_refl _⟩

/-- Pieces of one stretch followed by pieces of a later one. -/
theorem Within.append {first second : Address} {front back : List Interval}
    (hf : Within place first front) (hb : Within second stop back) (hm : first ≤ second)
    (hp : place ≤ second) (hs : first ≤ stop) : Within place stop (front ++ back) := by
  rw [Address.le_def] at hm hp hs
  refine ⟨Separated.append_iff.2 ⟨hf.separated, hb.separated, fun r hr s hs' => ?_⟩, ?_⟩
  · have hr := (hf.bounds r hr).2
    have hs' := (hb.bounds s hs').1
    rw [Address.le_def] at hr hs' ⊢
    omega
  · intro p hpm
    rcases List.mem_append.1 hpm with hpm | hpm
    · have := hf.bounds p hpm
      rw [Address.le_def, Address.le_def] at this ⊢
      omega
    · have := hb.bounds p hpm
      rw [Address.le_def, Address.le_def] at this ⊢
      omega

/-- Pieces of separated intervals, one interval after another. -/
theorem Separated.flatMap {ranges : List Interval} {pieces : Interval → List Interval}
    (h : Separated ranges) (hp : ∀ r ∈ ranges, Within r.start r.stop (pieces r)) :
    Separated (ranges.flatMap pieces) := by
  induction ranges with
  | nil => exact Separated.nil
  | cons r rest ih =>
    obtain ⟨_, hfirst, hrest⟩ := Separated.cons_iff.1 h
    have hr := hp r (by simp)
    rw [List.flatMap_cons]
    refine Separated.append_iff.2 ⟨hr.separated, ih hrest fun s hs => hp s (by simp [hs]), ?_⟩
    intro p hpr q hq
    obtain ⟨s, hs, hqs⟩ := List.mem_flatMap.1 hq
    have hstop := (hr.bounds p hpr).2
    have hstart := ((hp s (by simp [hs])).bounds q hqs).1
    have hle := hfirst s hs
    rw [Address.le_def] at hstop hstart hle ⊢
    omega

private theorem map_fst_marked (pieces : List Interval) (isCode : Bool) :
    (pieces.map fun piece => (piece, isCode)).map Prod.fst = pieces := by
  simp [Function.comp_def]

theorem cutAt_within (stop place : Address) (code : List Interval) :
    Within place stop ((cutAt stop place code).map Prod.fst) := by
  induction code generalizing place with
  | nil =>
    rw [cutAt, map_fst_marked]
    exact between_within place stop
  | cons c rest ih =>
    unfold cutAt
    split
    · rw [map_fst_marked]
      exact between_within place stop
    · next hlt =>
      rw [Address.le_def] at hlt
      let start := max place c.start
      let finish := min c.stop stop
      have hstart : start.toNat = max place.toNat c.start.toNat := Address.toNat_max ..
      have hfinish : finish.toNat = min c.stop.toNat stop.toNat := Address.toNat_min ..
      have hnext : (max start finish).toNat = max start.toNat finish.toNat := Address.toNat_max ..
      have hcode : Within start stop
          (between start finish ++ (cutAt stop (max start finish) rest).map Prod.fst) := by
        refine (between_within start finish).append (ih (max start finish)) ?_ ?_ ?_
        all_goals
          rw [Address.le_def]
          omega
      simp only [List.map_append, map_fst_marked, List.append_assoc]
      refine (between_within place c.start).append hcode ?_ ?_ ?_
      all_goals
        rw [Address.le_def]
        omega

/-- The pieces hold all addresses, whatever the code is. -/
theorem contains_cutAt (code : List Interval) :
    (∃ p ∈ cutAt stop place code, p.1.contains a = true) ↔ place ≤ a ∧ a < stop := by
  have hmarked : ∀ (pieces : List Interval) (isCode : Bool),
      (∃ p ∈ pieces.map fun piece => (piece, isCode), p.1.contains a = true) ↔
        ∃ p ∈ pieces, p.contains a = true := by simp
  induction code generalizing place with
  | nil => rw [cutAt, hmarked, contains_between]
  | cons c rest ih =>
    unfold cutAt
    split
    · rw [hmarked, contains_between]
    · next hlt =>
      rw [Address.le_def] at hlt
      simp only [List.mem_append, or_and_right, exists_or, hmarked, contains_between, ih,
        Address.le_def, Address.lt_def, Address.toNat_max, Address.toNat_min]
      omega

theorem not_contains_of_lt_start {c : Interval} {rest : List Interval}
    (h : (c :: rest).Pairwise fun r s => r.start ≤ s.start) (ha : a < c.start) :
    ¬ ∃ d ∈ c :: rest, d.contains a = true := by
  rintro ⟨d, hd, hda⟩
  have hstart : c.start ≤ d.start := by
    rcases List.mem_cons.1 hd with rfl | hd
    · exact Nat.le_refl _
    · exact (List.pairwise_cons.1 h).1 d hd
  rw [Address.lt_def] at ha
  rw [Address.le_def] at hstart
  rw [contains_iff] at hda
  omega

/-- A piece is marked as code exactly where code is. -/
theorem isCode_of_mem_cutAt {code : List Interval} {p : Interval × Bool}
    (h : code.Pairwise fun r s => r.start ≤ s.start) (hp : p ∈ cutAt stop place code)
    (ha : p.1.contains a = true) :
    p.2 = true ↔ ∃ c ∈ code, c.contains a = true := by
  induction code generalizing place with
  | nil =>
    obtain ⟨piece, _, rfl⟩ := List.mem_map.1 hp
    simp
  | cons c rest ih =>
    unfold cutAt at hp
    split at hp
    · next hle =>
      obtain ⟨piece, hpiece, rfl⟩ := List.mem_map.1 hp
      have hlt := (contains_between.1 ⟨piece, hpiece, ha⟩).2
      rw [Address.le_def] at hle
      have hno := not_contains_of_lt_start h (Address.lt_def.2 (Nat.lt_of_lt_of_le hlt hle))
      simpa using hno
    · next hlt =>
      rcases List.mem_append.1 hp with hp | hp
      · rcases List.mem_append.1 hp with hp | hp
        · obtain ⟨piece, hpiece, rfl⟩ := List.mem_map.1 hp
          have hno := not_contains_of_lt_start h (contains_between.1 ⟨piece, hpiece, ha⟩).2
          simpa using hno
        · obtain ⟨piece, hpiece, rfl⟩ := List.mem_map.1 hp
          have hin := contains_between.1 ⟨piece, hpiece, ha⟩
          rw [Address.le_def, Address.lt_def, Address.toNat_max, Address.toNat_min] at hin
          have hc : c.contains a = true := contains_iff.2 (by omega)
          exact ⟨fun _ => ⟨c, by simp, hc⟩, fun _ => rfl⟩
      · -- What is left starts where the first code has ended.
        have hbounds := (cutAt_within stop _ rest).bounds p.1 (List.mem_map_of_mem hp)
        have hno : c.contains a = false := by
          have hin := contains_iff.1 ha
          simp only [Address.le_def, Address.toNat_max, Address.toNat_min] at hbounds
          rw [contains_eq_false_iff]
          omega
        rw [ih h.of_cons hp, List.exists_mem_cons_iff, hno]
        simp

theorem outside_within {ranges : List Interval} (h : Separated ranges) (stop place : Address) :
    Within place stop (outside stop place ranges) := by
  induction ranges generalizing place with
  | nil => exact between_within place stop
  | cons r rest ih =>
    obtain ⟨hr, _, hrest⟩ := Separated.cons_iff.1 h
    unfold outside
    split
    · exact between_within place stop
    · next hlt =>
      rw [Address.le_def] at hlt
      rw [isEmpty_eq_false_iff] at hr
      have hnext : (max place r.stop).toNat = max place.toNat r.stop.toNat := Address.toNat_max ..
      refine (between_within place r.start).append (ih hrest (max place r.stop)) ?_ ?_ ?_
      all_goals
        rw [Address.le_def]
        omega

/-- The pieces outside some intervals hold exactly the addresses that none of these holds. -/
theorem contains_outside {ranges : List Interval} (h : Separated ranges) :
    (∃ p ∈ outside stop place ranges, p.contains a = true) ↔
      (place ≤ a ∧ a < stop) ∧ ∀ r ∈ ranges, r.contains a = false := by
  induction ranges generalizing place with
  | nil => simp [outside, contains_between]
  | cons r rest ih =>
    obtain ⟨hr, hfirst, hrest⟩ := Separated.cons_iff.1 h
    rw [isEmpty_eq_false_iff] at hr
    -- An address before the end of the first interval is before all others.
    have hbefore : a.toNat < r.stop.toNat → ∀ s ∈ rest, s.contains a = false := by
      intro ha s hs
      have hle := hfirst s hs
      rw [Address.le_def] at hle
      exact contains_eq_false_iff.2 (.inl (by omega))
    rw [List.forall_mem_cons, contains_eq_false_iff]
    unfold outside
    split
    · next hle =>
      rw [contains_between]
      rw [Address.le_def] at hle
      constructor
      · intro ha
        have hlt : a.toNat < r.start.toNat := Nat.lt_of_lt_of_le ha.2 hle
        exact ⟨ha, .inl hlt, hbefore (by omega)⟩
      · exact And.left
    · next hlt =>
      rw [Address.le_def] at hlt
      rw [exists_contains_append, contains_between, ih hrest]
      simp only [Address.le_def, Address.lt_def, Address.toNat_max]
      constructor
      · rintro (ha | ⟨ha, hno⟩)
        · exact ⟨by omega, .inl ha.2, hbefore (by omega)⟩
        · exact ⟨by omega, .inr (by omega), hno⟩
      · rintro ⟨ha, hside | hside, hno⟩
        · exact .inl ⟨ha.1, hside⟩
        · exact .inr ⟨by omega, hno⟩

end CrashDump.Interval

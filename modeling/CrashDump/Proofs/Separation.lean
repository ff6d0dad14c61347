import CrashDump.Memory.Intervals
import CrashDump.Memory.Search
import Mathlib

/-!
# Separated intervals

Items whose intervals are separated split at every address into those that end at or before it and
those that end after it. The search by halves finds the place of the split, and the only item that
can hold the address is the first one after it.
-/
namespace CrashDump.Interval

theorem isEmpty_eq_false_iff {r : Interval} :
    r.isEmpty = false ↔ r.start.toNat < r.stop.toNat := by
  simp [isEmpty, Address.le_def]

theorem contains_start {r : Interval} (h : r.isEmpty = false) : r.contains r.start = true := by
  rw [isEmpty_eq_false_iff] at h
  exact contains_iff.2 ⟨Nat.le_refl _, h⟩

theorem contains_eq_false_iff {r : Interval} {a : Address} :
    r.contains a = false ↔ a.toNat < r.start.toNat ∨ r.stop.toNat ≤ a.toNat := by
  rw [← Bool.not_eq_true, contains_iff]
  omega

theorem start_le_of_precedes {r s : Interval} (h : r.precedes s = true) : r.start ≤ s.start := by
  rw [precedes_iff] at h
  exact Address.le_def.2 (by omega)

theorem precedes_refl (r : Interval) : r.precedes r = true :=
  precedes_iff.2 (.inr ⟨rfl, Nat.le_refl _⟩)

theorem precedes_trans {r s t : Interval} (hrs : r.precedes s = true)
    (hst : s.precedes t = true) : r.precedes t = true := by
  rw [precedes_iff] at hrs hst ⊢
  omega

theorem precedes_total (r s : Interval) : r.precedes s = true ∨ s.precedes r = true := by
  rw [precedes_iff, precedes_iff]
  omega

theorem eq_of_precedes {r s : Interval} (hrs : r.precedes s = true)
    (hsr : s.precedes r = true) : r = s := by
  rw [precedes_iff] at hrs hsr
  have hstart : r.start = s.start := Address.toNat_inj.1 (by omega)
  have hstop : r.stop = s.stop := Address.toNat_inj.1 (by omega)
  cases r
  cases s
  simp_all

/-- An interval that starts no later than one it shares an address with holds its start. -/
theorem contains_start_of_precedes {r s : Interval} (hp : r.precedes s = true)
    (hs : ∃ a, r.contains a = true ∧ s.contains a = true) : r.contains s.start = true := by
  obtain ⟨a, hr, hs⟩ := hs
  rw [precedes_iff] at hp
  rw [contains_iff] at hr hs ⊢
  omega

/-- Items sorted by the start and then by the end of their intervals. -/
theorem pairwise_mergeSort {α : Type} (range : α → Interval) (items : List α) :
    (items.mergeSort fun x y => (range x).precedes (range y)).Pairwise
      fun x y => (range x).precedes (range y) = true := by
  apply List.pairwise_mergeSort
  · exact fun x y z hxy hyz => precedes_trans hxy hyz
  · intro x y
    rw [Bool.or_eq_true]
    exact precedes_total _ _

/-- No address is in both intervals. -/
def Apart (r s : Interval) : Prop := ∀ a, r.contains a = true → s.contains a = false

theorem Apart.symm {r s : Interval} (h : r.Apart s) : s.Apart r := by
  intro a hs
  rw [← Bool.not_eq_true]
  intro hr
  rw [h a hr] at hs
  exact Bool.noConfusion hs

theorem apart_iff {r s : Interval} (hr : r.isEmpty = false) (hs : s.isEmpty = false) :
    r.Apart s ↔ r.overlaps s = false := by
  rw [← Bool.not_eq_true, overlaps_iff_exists hr hs]
  simp [Apart]

namespace Separated

theorem nil : Separated [] := ⟨by simp, List.Pairwise.nil⟩

theorem cons_iff {r : Interval} {ranges : List Interval} :
    Separated (r :: ranges) ↔
      r.isEmpty = false ∧ (∀ s ∈ ranges, r.stop ≤ s.start) ∧ Separated ranges := by
  constructor
  · rintro ⟨hn, ho⟩
    obtain ⟨hr, ho⟩ := List.pairwise_cons.1 ho
    exact ⟨hn r (by simp), hr, fun s hs => hn s (by simp [hs]), ho⟩
  · rintro ⟨hr, hs, hn, ho⟩
    refine ⟨fun s hs => ?_, List.pairwise_cons.2 ⟨hs, ho⟩⟩
    cases hs with
    | head => exact hr
    | tail _ hs => exact hn s hs

theorem append_iff {front back : List Interval} :
    Separated (front ++ back) ↔
      Separated front ∧ Separated back ∧ ∀ r ∈ front, ∀ s ∈ back, r.stop ≤ s.start := by
  induction front with
  | nil => simp [nil]
  | cons r front ih =>
    simp only [List.cons_append, cons_iff, ih, List.mem_append, List.mem_cons]
    constructor
    · rintro ⟨hr, hs, hf, hb, hc⟩
      refine ⟨⟨hr, fun s h => hs s (.inl h), hf⟩, hb, ?_⟩
      rintro t (rfl | ht) s h
      · exact hs s (.inr h)
      · exact hc t ht s h
    · rintro ⟨⟨hr, hs, hf⟩, hb, hc⟩
      exact ⟨hr, fun s h => h.elim (hs s) (hc r (.inl rfl) s), hf, hb,
        fun t ht s h => hc t (.inr ht) s h⟩

variable {ranges : List Interval}

/-- Each interval starts before those that follow it. -/
theorem ascending (h : Separated ranges) : ranges.Pairwise fun r s => r.start < s.start := by
  refine List.Pairwise.imp_of_mem (fun {r s} hr _ hrs => ?_) h.ordered
  have hr' := isEmpty_eq_false_iff.1 (h.nonempty r hr)
  rw [Address.le_def] at hrs
  exact Address.lt_def.2 (by omega)

/-- No interval shares an address with one that follows it. -/
theorem pairwise_apart (h : Separated ranges) : ranges.Pairwise Apart := by
  refine h.ordered.imp fun {r s} hrs a ha => ?_
  rw [Address.le_def] at hrs
  rw [contains_iff] at ha
  rw [contains_eq_false_iff]
  omega

/-- Intervals that hold addresses, start in order and share none are separated. -/
theorem of_sorted (hn : ∀ r ∈ ranges, r.isEmpty = false)
    (hs : ranges.Pairwise fun r s => r.start ≤ s.start)
    (ho : ranges.Pairwise Apart) : Separated ranges := by
  refine ⟨hn, (hs.and ho).imp_of_mem fun {r s} hr hs' h => ?_⟩
  obtain ⟨hle, hno⟩ := h
  rw [apart_iff (hn r hr) (hn s hs'), ← Bool.not_eq_true, overlaps_iff] at hno
  have hs' := isEmpty_eq_false_iff.1 (hn s hs')
  rw [Address.le_def] at hle ⊢
  omega

variable {α : Type} {range : α → Interval} {items : List α}

/-- The search for the end of the items that end at or before an address splits them there. -/
theorem exists_boundary (h : Separated (items.map range)) (a : Address) :
    ∃ front back, items = front ++ back ∧
      Search.boundary (fun x => (range x).stop ≤ a) items.toArray = front.length ∧
      (∀ x ∈ front, (range x).stop ≤ a) ∧ ∀ x ∈ back, a < (range x).stop := by
  have hmono : items.Pairwise fun x y =>
      decide ((range y).stop ≤ a) = true → decide ((range x).stop ≤ a) = true := by
    have hordered := h.ordered
    rw [List.pairwise_map] at hordered
    refine hordered.imp_of_mem fun {x y} _ hy hxy hle => ?_
    have hne := isEmpty_eq_false_iff.1 (h.nonempty (range y) (List.mem_map_of_mem hy))
    simp only [decide_eq_true_eq, Address.le_def] at hxy hle ⊢
    omega
  obtain ⟨front, back, hs, hi, hf, hb⟩ := Search.exists_boundary hmono
  refine ⟨front, back, hs, hi, fun x hx => of_decide_eq_true (hf x hx), fun x hx => ?_⟩
  have hlt := of_decide_eq_false (hb x hx)
  rw [Address.le_def] at hlt
  exact Address.lt_def.2 (by omega)

/-- Of items that all end after an address only the first can hold it. -/
theorem eq_head {x y : α} {rest : List α} {a : Address}
    (h : Separated ((x :: rest).map range)) (hx : a < (range x).stop) (hy : y ∈ x :: rest)
    (ha : (range y).start ≤ a) : y = x := by
  cases hy with
  | head => rfl
  | tail _ hy =>
    have hxy := (cons_iff.1 h).2.1 (range y) (List.mem_map_of_mem hy)
    rw [Address.le_def] at ha hxy
    rw [Address.lt_def] at hx
    omega

/-- Only one item holds an address. -/
theorem eq_of_contains {x y : α} {a : Address} (h : Separated (items.map range)) (hx : x ∈ items)
    (hy : y ∈ items) (hxa : (range x).contains a = true) (hya : (range y).contains a = true) :
    x = y := by
  obtain ⟨front, back, hsplit, _, hf, hb⟩ := h.exists_boundary a
  rw [contains_iff] at hxa hya
  have hback : ∀ z ∈ items, a.toNat < (range z).stop.toNat → z ∈ back := by
    intro z hz hlt
    rw [hsplit] at hz
    refine (List.mem_append.1 hz).resolve_left fun hz => ?_
    have hle := hf z hz
    rw [Address.le_def] at hle
    omega
  have hx := hback x hx hxa.2
  have hy := hback y hy hya.2
  cases back with
  | nil => exact absurd hx List.not_mem_nil
  | cons z rest =>
    rw [hsplit, List.map_append] at h
    have hrest := (append_iff.1 h).2.1
    have hz := hb z List.mem_cons_self
    rw [hrest.eq_head hz hx hxa.1, hrest.eq_head hz hy hya.1]

/-- Items that all end after an interval starts follow it if the first of them does not overlap
it. -/
theorem stop_le_start {r : Interval} (h : Separated (items.map range))
    (hb : ∀ x ∈ items, r.start < (range x).stop)
    (hno : ∀ x ∈ items.head?, (range x).overlaps r = false) :
    ∀ x ∈ items, r.stop ≤ (range x).start := by
  cases items with
  | nil => simp
  | cons x rest =>
    obtain ⟨hx, hrest, _⟩ := cons_iff.1 h
    have hlt := hb x (by simp)
    have hno := hno x rfl
    rw [← Bool.not_eq_true, overlaps_iff] at hno
    rw [isEmpty_eq_false_iff] at hx
    rw [Address.lt_def] at hlt
    have hfirst : r.stop.toNat ≤ (range x).start.toNat := by omega
    intro y hy
    rw [Address.le_def]
    rcases List.mem_cons.1 hy with rfl | hy
    · exact hfirst
    · have hle := hrest (range y) (List.mem_map_of_mem hy)
      rw [Address.le_def] at hle
      omega

end Separated
end CrashDump.Interval

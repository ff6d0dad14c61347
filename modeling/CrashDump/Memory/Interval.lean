import CrashDump.Memory.Address

/-!
# Intervals of addresses

An interval is half open, so the highest address is in none. It may be empty or even reversed: such
an interval holds no address.
-/
namespace CrashDump

/-- The addresses from `start` up to but not including `stop`. -/
structure Interval where
  start : Address
  stop : Address
  deriving DecidableEq, Repr, Inhabited

namespace Interval

/-- The interval of `length` bytes from `start`, when its end is an address. -/
def ofLength? (start : Address) (length : Nat) : Option Interval :=
  (start.add? length).map fun stop => ⟨start, stop⟩

/-- The interval of `length` bytes from `start`, cut off at the highest address. -/
def upTo (start : Address) (length : Nat) : Interval := ⟨start, start.saturatingAdd length⟩

def length (r : Interval) : Nat := r.stop.toNat - r.start.toNat

def isEmpty (r : Interval) : Bool := r.stop ≤ r.start

def contains (r : Interval) (a : Address) : Bool := r.start ≤ a && a < r.stop

/-- Whether each interval starts before the other ends. -/
def overlaps (r s : Interval) : Bool := r.start < s.stop && s.start < r.stop

/-- By start, then by end. -/
def precedes (r s : Interval) : Bool :=
  r.start < s.start || (r.start == s.start && r.stop ≤ s.stop)

instance : Ord Interval :=
  ⟨fun r s => (compare r.start s.start).then (compare r.stop s.stop)⟩

def clip (r s : Interval) : Interval := ⟨max r.start s.start, min r.stop s.stop⟩

/-- Both ends in brackets, the second one open. -/
def text (r : Interval) : String := "[" ++ r.start.text ++ ", " ++ r.stop.text ++ ")"

theorem contains_iff {r : Interval} {a : Address} :
    r.contains a = true ↔ r.start.toNat ≤ a.toNat ∧ a.toNat < r.stop.toNat := by
  simp [contains, Address.le_def, Address.lt_def]

theorem overlaps_iff {r s : Interval} :
    r.overlaps s = true ↔ r.start.toNat < s.stop.toNat ∧ s.start.toNat < r.stop.toNat := by
  simp [overlaps, Address.lt_def]

theorem precedes_iff {r s : Interval} :
    r.precedes s = true ↔ r.start.toNat < s.start.toNat ∨
      (r.start.toNat = s.start.toNat ∧ r.stop.toNat ≤ s.stop.toNat) := by
  simp [precedes, Address.le_def, Address.lt_def, ← Address.toNat_inj]

theorem ofLength?_eq_some_iff {start : Address} {length : Nat} {r : Interval} :
    ofLength? start length = some r ↔
      r.start = start ∧ r.stop.toNat = start.toNat + length := by
  constructor
  · intro h
    obtain ⟨stop, hs, rfl⟩ := Option.map_eq_some_iff.1 h
    exact ⟨rfl, Address.add?_eq_some_iff.1 hs⟩
  · rintro ⟨rfl, h⟩
    exact Option.map_eq_some_iff.2 ⟨r.stop, Address.add?_eq_some_iff.2 h, rfl⟩

/-- Two intervals that hold addresses overlap exactly if they share one. -/
theorem overlaps_iff_exists {r s : Interval} (hr : r.isEmpty = false) (hs : s.isEmpty = false) :
    r.overlaps s = true ↔ ∃ a, r.contains a = true ∧ s.contains a = true := by
  have hr' : r.start.toNat < r.stop.toNat := by
    simpa [isEmpty, Address.le_def] using hr
  have hs' : s.start.toNat < s.stop.toNat := by
    simpa [isEmpty, Address.le_def] using hs
  simp only [overlaps_iff, contains_iff]
  constructor
  · intro h
    refine ⟨max r.start s.start, ?_⟩
    rw [Address.toNat_max]
    omega
  · rintro ⟨a, h⟩
    omega

end Interval
end CrashDump

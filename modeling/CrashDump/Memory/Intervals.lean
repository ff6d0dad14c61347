import CrashDump.Memory.Interval

/-!
# Lists of intervals

Sorting by start and then by end, leaving out repetitions, and joining what overlaps or touches.
-/
namespace CrashDump.Interval

def sort (ranges : List Interval) : List Interval := ranges.mergeSort precedes

/-- Leaves out what repeats the interval before it. -/
def distinct : List Interval → List Interval
  | [] => []
  | [r] => [r]
  | r :: s :: rest => if r = s then distinct (s :: rest) else r :: distinct (s :: rest)

/-- Joins the first interval with those after it for as long as they start inside it or at its
end. -/
def mergeFrom (first : Interval) : List Interval → List Interval
  | [] => [first]
  | r :: rest =>
    if r.start ≤ first.stop then mergeFrom ⟨first.start, max first.stop r.stop⟩ rest
    else first :: mergeFrom r rest

def merge : List Interval → List Interval
  | [] => []
  | r :: rest => mergeFrom r rest

/-- The intervals that together hold the addresses of all the given ones, in ascending order and
with a gap between any two. -/
def union (ranges : List Interval) : List Interval := merge (sort ranges)

/-- Each interval holds addresses and ends before the next starts. -/
structure Separated (ranges : List Interval) : Prop where
  nonempty : ∀ r ∈ ranges, r.isEmpty = false
  ordered : ranges.Pairwise fun r s => r.stop ≤ s.start

end CrashDump.Interval

import CrashDump.Memory.RegionMap
import CrashDump.Proofs.Machine.Modules

/-!
# The region map on the machine

Where a search by halves leads is never beyond the items, so what is sliced off from there on is
inside; and windows of two hold two mappings.
-/
namespace CrashDump.Machine

/-- The items from the place on that a search by halves leads to. -/
def dropPassing {α : Type} (test : α → Bool) (items : List α) : Except Trap (List α) :=
  back items (Search.boundary test items.toArray)

theorem dropPassing_eq {α : Type} (test : α → Bool) (items : List α) :
    dropPassing test items = .ok (Search.dropPassing test items) := by
  have hplace := Search.boundary_le test items.toArray
  rw [List.size_toArray] at hplace
  exact back_eq hplace

def pathAt? (list : ModuleList) (a : Address) : Except Trap (Option String) := do
  let found ← at? list a
  return found.map Module.path

def shown (captured : Captured) (modules : ModuleList) : Except Trap (List Mapping) := do
  let code := modules.executableRanges
  let pieces ← captured.ranges.mapM fun range => do
    let fromRange ← dropPassing (fun piece => decide (piece.stop ≤ range.start)) code
    return Interval.cutAt range.stop range.start fromRange
  pieces.flatten.mapM fun (piece, isCode) => do
    let name ← pathAt? modules piece.start
    return ⟨piece, ⟨true, false, isCode⟩, name⟩

def unlisted (captured : Captured) (modules : ModuleList) (listed : List Mapping) :
    Except Trap (List Mapping) := do
  let pieces ← captured.ranges.mapM fun range => do
    let fromRange ← dropPassing (fun m => decide (m.range.stop ≤ range.start)) listed
    return Interval.outside range.stop range.start (fromRange.map Mapping.range)
  pieces.flatten.mapM fun piece => do
    let name ← pathAt? modules piece.start
    return ⟨piece, .readOnly, name⟩

/-- The runs of two items that follow one another. -/
def adjacentPairs {α : Type} : List α → List (List α)
  | first :: second :: rest => [first, second] :: adjacentPairs (second :: rest)
  | _ => []

def firstOverlap? : List (List Mapping) → Except Trap (Option (Interval × Interval))
  | [] => return none
  | pair :: rest => do
    let first ← item pair 0
    let second ← item pair 1
    if second.range.start < first.range.stop then return some (first.range, second.range)
    else firstOverlap? rest

def sorted (mappings : List Mapping) : Guarded SnapshotFault (List Mapping) := do
  let sorted := mappings.mergeSort fun m n => m.range.precedes n.range
  match ← firstOverlap? (adjacentPairs sorted) with
  | some (first, second) => throw (.corruptMemoryMap first second)
  | none => return sorted

def build (maps : Option (List MapsEntry)) (info : Option (List MemoryInfo)) (captured : Captured)
    (modules : ModuleList) : Guarded SnapshotFault RegionMap :=
  match RegionMap.listed? maps info with
  | some (source, mappings) => do
    let listed ← sorted mappings
    let others ← unlisted captured modules listed
    return ⟨source, (listed ++ others).mergeSort fun m n => m.range.start ≤ n.range.start⟩
  | none => do
    let mappings ← shown captured modules
    let mappings ← sorted mappings
    return ⟨.captured, mappings⟩

theorem firstOverlap?_eq (mappings : List Mapping) :
    firstOverlap? (adjacentPairs mappings) = .ok (RegionMap.firstOverlap? mappings) := by
  fun_induction RegionMap.firstOverlap? mappings with
  | case1 m n rest hover =>
    rw [adjacentPairs, firstOverlap?]
    change (if n.range.start < m.range.stop then _ else _) = _
    rw [if_pos hover]
    rfl
  | case2 m n rest hover ih =>
    rw [adjacentPairs, firstOverlap?]
    change (if n.range.start < m.range.stop then _ else _) = _
    rw [if_neg hover]
    exact ih
  | case3 mappings hfew =>
    rw [adjacentPairs]
    · rfl
    · exact hfew

theorem sorted_eq (mappings : List Mapping) :
    sorted mappings = pass (RegionMap.sorted mappings) := by
  unfold sorted RegionMap.sorted
  simp only [firstOverlap?_eq, lift_bind]
  cases RegionMap.firstOverlap? (mappings.mergeSort fun m n => m.range.precedes n.range) with
  | none => rfl
  | some pair => rfl

variable {modules : ModuleList} (hmodules : ModuleList.Ascending modules.modules)

include hmodules

theorem pathAt?_eq (a : Address) : pathAt? modules a = .ok (modules.pathAt? a) := by
  rw [pathAt?, at?_eq hmodules, ok_bind]
  rfl

theorem shown_eq (captured : Captured) :
    shown captured modules = .ok (RegionMap.shown captured modules) := by
  unfold shown RegionMap.shown
  simp only [dropPassing_eq, pathAt?_eq hmodules, ok_bind, List.mapM_pure, pure_bind,
    List.flatMap_def]
  rfl

theorem unlisted_eq (captured : Captured) (listed : List Mapping) :
    unlisted captured modules listed = .ok (RegionMap.unlisted captured modules listed) := by
  unfold unlisted RegionMap.unlisted
  simp only [dropPassing_eq, pathAt?_eq hmodules, ok_bind, List.mapM_pure, pure_bind,
    List.flatMap_def]
  rfl

theorem build_eq (maps : Option (List MapsEntry)) (info : Option (List MemoryInfo))
    (captured : Captured) :
    build maps info captured modules = pass (RegionMap.build maps info captured modules) := by
  unfold build RegionMap.build
  cases RegionMap.listed? maps info with
  | some listing =>
    obtain ⟨source, mappings⟩ := listing
    simp only [sorted_eq]
    refine pass_bind fun listed _ => ?_
    rw [unlisted_eq hmodules, lift_bind]
    rfl
  | none =>
    simp only [shown_eq hmodules, lift_bind, sorted_eq]
    cases RegionMap.sorted (RegionMap.shown captured modules) with
    | error fault => rfl
    | ok mappings => rfl

end CrashDump.Machine

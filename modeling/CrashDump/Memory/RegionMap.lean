import CrashDump.Memory.Captured
import CrashDump.Memory.Protection
import CrashDump.Module.Basic
import CrashDump.Process.Maps

/-!
# The region map

What the address space of the process looked like. The best source is the list of mappings that the
system kept, then the memory information of the dump; to either, captured bytes outside every
listed mapping are added. Without both, the captured memory alone is the map, and it counts as code
where a module holds code.
-/
namespace CrashDump

inductive RegionSource where
  | linuxMaps
  | memoryInfo
  | captured
  deriving DecidableEq, Repr

def RegionSource.name : RegionSource → String
  | linuxMaps => "LinuxMaps"
  | memoryInfo => "MemoryInfo"
  | captured => "Captured"

/-- The mappings of a process in ascending order, none of them overlapping another. -/
structure RegionMap where
  source : RegionSource
  mappings : List Mapping
  deriving DecidableEq, Repr

/-- The mapping that a line of a memory map lists, unless it is empty. -/
def MapsEntry.mapping? (entry : MapsEntry) : Option Mapping :=
  if entry.range.isEmpty then none else some ⟨entry.range, entry.permissions, entry.path⟩

namespace Interval

/-- The addresses between two others, if there are any. -/
def between (start stop : Address) : List Interval := if start < stop then [⟨start, stop⟩] else []

/-- Cuts the addresses from `place` to `stop` at the bounds of code. Each piece is marked with
whether it is code. -/
def cutAt (stop place : Address) : List Interval → List (Interval × Bool)
  | [] => (between place stop).map fun piece => (piece, false)
  | code :: rest =>
    if stop ≤ code.start then (between place stop).map fun piece => (piece, false)
    else
      let start := max place code.start
      let finish := min code.stop stop
      ((between place code.start).map fun piece => (piece, false)) ++
        ((between start finish).map fun piece => (piece, true)) ++
        cutAt stop (max start finish) rest

/-- The addresses from `place` to `stop` that lie in none of the sorted intervals. -/
def outside (stop place : Address) : List Interval → List Interval
  | [] => between place stop
  | range :: rest =>
    if stop ≤ range.start then between place stop
    else between place range.start ++ outside stop (max place range.stop) rest

end Interval

namespace RegionMap

/-- The mappings that the system listed, and which of its lists they are from. -/
def listed? (maps : Option (List MapsEntry)) (info : Option (List MemoryInfo)) :
    Option (RegionSource × List Mapping) :=
  match maps, info with
  | some entries, _ => some (.linuxMaps, entries.filterMap MapsEntry.mapping?)
  | none, some entries => some (.memoryInfo, entries.filterMap MemoryInfo.mapping?)
  | none, none => none

/-- The mappings that captured memory shows, cut where code begins and ends. -/
def shown (captured : Captured) (modules : ModuleList) : List Mapping :=
  let code := modules.executableRanges
  let pieces := captured.ranges.flatMap fun range =>
    let fromRange := Search.dropPassing (fun piece => piece.stop ≤ range.start) code
    Interval.cutAt range.stop range.start fromRange
  pieces.map fun (piece, isCode) =>
    ⟨piece, ⟨true, false, isCode⟩, modules.pathAt? piece.start⟩

/-- The mappings of captured memory that lies outside all listed ones. -/
def unlisted (captured : Captured) (modules : ModuleList) (listed : List Mapping) :
    List Mapping :=
  let pieces := captured.ranges.flatMap fun range =>
    let fromRange := Search.dropPassing (fun m => m.range.stop ≤ range.start) listed
    Interval.outside range.stop range.start (fromRange.map Mapping.range)
  pieces.map fun piece => ⟨piece, .readOnly, modules.pathAt? piece.start⟩

def firstOverlap? : List Mapping → Option (Interval × Interval)
  | m :: n :: rest =>
    if n.range.start < m.range.stop then some (m.range, n.range) else firstOverlap? (n :: rest)
  | _ => none

/-- Mappings by start and then by end, which must not overlap. -/
def sorted (mappings : List Mapping) : Except SnapshotFault (List Mapping) :=
  let sorted := mappings.mergeSort fun m n => m.range.precedes n.range
  match firstOverlap? sorted with
  | some (first, second) => .error (.corruptMemoryMap first second)
  | none => .ok sorted

/-- The map made from what the system listed, as far as the dump has it, and from captured
memory. -/
def build (maps : Option (List MapsEntry)) (info : Option (List MemoryInfo))
    (captured : Captured) (modules : ModuleList) : Except SnapshotFault RegionMap :=
  match listed? maps info with
  | some (source, mappings) => do
    let listed ← sorted mappings
    let all := listed ++ unlisted captured modules listed
    .ok ⟨source, all.mergeSort fun m n => m.range.start ≤ n.range.start⟩
  | none => (sorted (shown captured modules)).map fun mappings => ⟨.captured, mappings⟩

/-- The mapping that holds an address, or the gap around it: from the end of the mapping before, or
the lowest address, to the start of the next one, or the highest address. -/
def regionAt (map : RegionMap) (a : Address) : Region :=
  let index := Search.boundary (fun m => m.range.stop ≤ a) map.mappings.toArray
  match map.mappings[index]?.filter fun m => m.range.start ≤ a with
  | some m => .mapping m
  | none =>
    .gap ⟨(map.mappings.take index).getLast?.elim Address.zero fun m => m.range.stop,
      map.mappings[index]?.elim Address.top fun m => m.range.start⟩

end RegionMap
end CrashDump

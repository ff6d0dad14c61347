import CrashDump.Module.Listing
import CrashDump.Options
import CrashDump.Process.Status
import CrashDump.Snapshot.Basic

/-!
# Loading a dump

A load reads the system information first, then modules, captured memory, the stacks of the
threads, the threads themselves and the region map. Each step gives its result with what it found
odd, and only damage to the dump itself ends a load.
-/
namespace CrashDump

namespace ThreadRecord

/-- The addresses of the stack, unless it is empty or wraps. -/
def stackRange? (record : ThreadRecord) : Option Interval :=
  if record.stack.location.size = 0 then none
  else Interval.ofLength? ⟨record.stack.start⟩ record.stack.location.size.toNat

end ThreadRecord

/-- Captured memory with the stack of a thread. A stack that one captured segment holds already adds
nothing, and one that overlaps captured memory otherwise is left out. -/
def Captured.withStack (c : Container) (memory : Captured) (record : ThreadRecord) :
    Except Malformed (Captured × List Diagnostic) :=
  match record.stackRange? with
  | none => .ok (memory, [])
  | some range =>
    if memory.covers range then .ok (memory, [])
    else do
      let bytes ← c.located record.stack.location
      match memory.insert? ⟨range, bytes⟩ with
      | some more => .ok (more, [])
      | none => .ok (memory, [.overlappingStack record.id range])

def Captured.withStacks (c : Container) (memory : Captured) :
    List ThreadRecord → Except Malformed (Captured × List Diagnostic)
  | [] => .ok (memory, [])
  | record :: rest => do
    let (more, reports) ← memory.withStack c record
    let (all, others) ← more.withStacks c rest
    .ok (all, reports ++ others)

namespace Thread

/-- The exception of a dump, if it belongs to a thread. -/
def exceptionOf (exception : Option ExceptionStream) (record : ThreadRecord) :
    Option ExceptionStream :=
  exception.filter fun stream => stream.threadId == record.id

/-- Where the context of a thread is. The exception has the one of the fault, the thread itself may
have one of a handler. -/
def contextLocation (exception : Option ExceptionStream) (record : ThreadRecord) : Location :=
  match exceptionOf exception record with
  | some stream => if stream.context.size ≠ 0 then stream.context else record.context
  | none => record.context

/-- The registers at a location. A thread without them is a thread all the same. -/
def registersAt (c : Container) (tag : UInt16) (platform : Platform) (thread : UInt32)
    (location : Location) : Except SnapshotFault (Option RegisterBank × List Diagnostic) :=
  if location.size = 0 then .ok (none, [.unusableContext thread "no context recorded"])
  else do
    let bytes ← Malformed.lift (c.located location)
    match RegisterBank.ofContext tag platform bytes with
    | .ok bank => .ok (some bank, [])
    | .error (.malformed fault) => .ok (none, [.unusableContext thread fault.message])
    | .error fault => .error fault

/-- The thread that a record describes. -/
def ofRecord (c : Container) (tag : UInt16) (walk : StackWalk) (limit : Nat)
    (exception : Option ExceptionStream) (record : ThreadRecord) :
    Except SnapshotFault (Thread × List Diagnostic) := do
  let (registers, reports) ←
    registersAt c tag walk.platform record.id (contextLocation exception record)
  .ok ({
    id := record.id
    registers := registers
    stop := match exceptionOf exception record with
      | some stream => ThreadStop.ofException walk.platform stream.record
      | none => ThreadStop.quiet
    stack := record.stackRange?
    suspendCount := record.suspendCount
    teb := record.teb
    frames := match registers with
      | some bank => walk.frames bank limit
      | none => [] }, reports)

end Thread

namespace Snapshot

def duplicateReports (c : Container) : List Diagnostic :=
  c.duplicates.map fun entry => .duplicateStream entry.kind entry.location.offset

/-- Streams that every process should have. Either list of memory will do. -/
def missingReports (c : Container) : List Diagnostic :=
  let lacks := fun kind => !c.has (StreamKind.tag kind)
  let lists := [StreamKind.threadList, .moduleList].filter lacks
  let memory := if lacks .memoryList ∧ lacks .memory64List then [StreamKind.memoryList] else []
  (lists ++ memory).map fun kind => .missingStream (some kind)

def strayReports (exception : Option ExceptionStream) (records : List ThreadRecord) :
    List Diagnostic :=
  match exception with
  | none => []
  | some stream =>
    if records.any fun record => record.id == stream.threadId then []
    else [.unknownExceptionThread stream.threadId]

/-- The number of the process: out of the miscellaneous information, if that says that it holds one,
or else out of the status that the system kept. -/
def processIdOf (c : Container) : Option UInt32 :=
  match c.miscInfo?.filter fun misc => misc.flags.toNat.testBit 0 with
  | some misc => some misc.processId
  | none => (c.text? StreamKind.linuxProcStatus.tag).bind ProcessStatus.processId?

def systemInfoOf (c : Container) : Except Malformed SystemInfo := do
  match ← c.systemInfo with
  | some info => .ok info
  | none => .error .noSystemInfo

def architectureOf (tag : UInt16) : Except SnapshotFault Architecture :=
  match Architecture.ofTag? tag with
  | some architecture => .ok architecture
  | none => .error (.unsupportedArchitecture tag)

/-- The region map of a dump with the given captured memory and modules. -/
def regionsOf (c : Container) (memory : Captured) (modules : ModuleList) :
    Except SnapshotFault RegionMap := do
  let maps := (c.text? StreamKind.linuxMaps.tag).map MapsEntry.ofText
  let info ← Malformed.lift c.memoryInfo
  RegionMap.build maps info memory modules

/-- What a load has of a dump before it turns to the region map. -/
structure Gathered where
  container : Container
  processId : Option UInt32
  architecture : Architecture
  platform : Platform
  threads : List Thread
  modules : ModuleList
  memory : Captured
  diagnostics : List Diagnostic

def gather (data : Buffer) (options : LoadOptions) (disk : Disk) :
    Except SnapshotFault Gathered := do
  let c ← Malformed.lift (Container.parse data)
  let system ← Malformed.lift (systemInfoOf c)
  let architecture ← architectureOf system.processor
  let platform := Platform.ofId system.platform
  let (modules, moduleReports) ←
    Malformed.lift (ModuleList.ofContainer c platform disk options.imagePaths)
  let records ← Malformed.lift c.memoryRecords
  let (captured, memoryReports) ← Captured.build records data
  let threadRecords ← Malformed.lift c.threads
  let (memory, stackReports) ← Malformed.lift (captured.withStacks c threadRecords)
  let exception ← Malformed.lift c.exception
  let walk : StackWalk := ⟨architecture, platform, memory⟩
  let threads ←
    threadRecords.mapM (Thread.ofRecord c system.processor walk options.maxFrames exception)
  .ok {
    container := c
    processId := processIdOf c
    architecture := architecture
    platform := platform
    threads := threads.map Prod.fst
    modules := modules
    memory := memory
    diagnostics := duplicateReports c ++ missingReports c ++ moduleReports ++ memoryReports ++
      stackReports ++ strayReports exception threadRecords ++ threads.flatMap Prod.snd }

def Gathered.snapshot (gathered : Gathered) (regions : RegionMap) : Snapshot where
  processId := gathered.processId
  architecture := gathered.architecture
  platform := gathered.platform
  writtenAt := gathered.container.writtenAt?
  threads := gathered.threads
  modules := gathered.modules
  regions := regions
  memory := gathered.memory
  diagnostics := gathered.diagnostics

/-- The snapshot of the process that a dump was written of. -/
def load (data : Buffer) (options : LoadOptions) (disk : Disk) :
    Except SnapshotFault Snapshot := do
  let gathered ← gather data options disk
  let regions ← regionsOf gathered.container gathered.memory gathered.modules
  .ok (gathered.snapshot regions)

/-- Whether a load ends the program, if paths in memory maps are cut at bytes. It gets to the maps
only if nothing before them is at fault. -/
def halts (data : Buffer) (options : LoadOptions) (disk : Disk) : Bool :=
  (gather data options disk).toOption.any fun gathered =>
    (gathered.container.text? StreamKind.linuxMaps.tag).any MapsEntry.haltsIn

def loadFile (path : String) (options : LoadOptions) (disk : Disk) :
    Except SnapshotFault Snapshot :=
  match disk.read path with
  | .ok data => load data options disk
  | .error fault => .error (.unreadable fault)

def haltsFile (path : String) (options : LoadOptions) (disk : Disk) : Bool :=
  (disk.read path).toOption.any fun data => halts data options disk

end Snapshot
end CrashDump

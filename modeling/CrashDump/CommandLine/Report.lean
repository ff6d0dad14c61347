import CrashDump.CommandLine.AddressText
import CrashDump.CommandLine.Arguments
import CrashDump.Snapshot.Basic
import CrashDump.Text.Calendar
import CrashDump.Text.Column

/-!
# Reports

What each command prints about a snapshot. A report is a list of lines; one that fails has the lines
before the fault and the fault.
-/
namespace CrashDump

structure Report where
  lines : List String
  fault : Option SnapshotFault
  deriving DecidableEq, Repr

namespace Report

def ofLines (lines : List String) : Report := ⟨lines, none⟩

/-- The report on a result, or its fault and no lines. -/
def ofResult {α : Type} (result : Except SnapshotFault α) (report : α → Report) : Report :=
  match result with
  | .ok value => report value
  | .error fault => ⟨[], some fault⟩

def append (first second : Report) : Report :=
  match first.fault with
  | some fault => ⟨first.lines, some fault⟩
  | none => ⟨first.lines ++ second.lines, second.fault⟩

def text (report : Report) : String := String.join (report.lines.map (· ++ "\n"))

/-- The thread that crashed and why. -/
def crashLines (s : Snapshot) : List String :=
  match s.crashedThread? with
  | none => []
  | some index =>
    match s.stop index with
    | .error _ => []
    | .ok stop =>
      ["  Crashed Thread: " ++ toString index,
        "  Stop Reason: " ++ stop.reason.kind ++ " (" ++ stop.description ++ ")"]

def diagnosticLines (s : Snapshot) : List String :=
  if s.diagnostics.isEmpty then []
  else "" :: "Diagnostics:" :: s.diagnostics.map fun d => "  " ++ d.text

def info (s : Snapshot) : Report :=
  ofLines <|
    ["Snapshot Information:",
      "  Process ID: " ++ (s.processId.map fun id => toString id.toNat).getD "unknown",
      "  Architecture: " ++ s.architecture.text,
      "  Platform: " ++ s.platform.text] ++
    (s.writtenAt.map fun seconds => "  Dumped At: " ++ Calendar.text seconds).toList ++
    ["  Threads: " ++ toString s.threads.length,
      "  Modules: " ++ toString s.modules.modules.length,
      "  Memory Regions: " ++ toString s.regions.mappings.length] ++
    crashLines s ++ diagnosticLines s

/-- A thread, where it was, and why it stopped if it crashed. -/
def threadLine (s : Snapshot) (index : Nat) (thread : Thread) : String :=
  let start := Text.right 3 (toString index) ++ " tid " ++ toString thread.id.toNat ++ " pc "
  let stop := if thread.stop.isCrash then " stop: " ++ thread.stop.description else ""
  match thread.registers with
  | none => start ++ "? (no context)" ++ stop
  | some bank =>
    let module := ((s.modules.at? bank.pc).map Module.name).getD "?"
    start ++ "0x" ++ Hex.short bank.pc.toNat ++ " (" ++ module ++ ")" ++ stop

def threads (s : Snapshot) : Report :=
  ofLines (s.threads.zipIdx.map fun (thread, index) => threadLine s index thread)

def isShown (entry : RegisterEntry) : Bool := entry.group == .general || entry.group == .status

/-- The registers that are shown when none is named. -/
def defaultNames (s : Snapshot) (thread frame : Nat) : Except SnapshotFault (List String) :=
  if frame = 0 then do
    let bank ← (← s.thread thread).bank "pc"
    .ok ((bank.primary.filter fun (entry, _) => isShown entry).map fun (entry, _) => entry.name)
  else .ok ["pc", "sp", "fp"]

/-- Registers by name, as far as they are known. -/
def registerLines (s : Snapshot) (thread frame : Nat) : List String → Report
  | [] => ofLines []
  | name :: rest =>
    (ofResult (s.register thread frame name) fun value =>
      ofLines [Text.right 8 name ++ " = " ++ value.text]).append
      (registerLines s thread frame rest)

def registers (s : Snapshot) (thread frame : Nat) (names : List String) : Report :=
  if names.isEmpty then ofResult (defaultNames s thread frame) (registerLines s thread frame)
  else registerLines s thread frame names

def moduleLine (m : Module) : String :=
  m.text ++ " " ++ m.version.getD "-" ++
    ((m.image.map fun image => " [" ++ image.path ++ "]").getD "")

def modules (s : Snapshot) : Report := ofLines (s.modules.modules.map moduleLine)

def regions (s : Snapshot) : Report := ofLines (s.regions.mappings.map Mapping.text)

def region (s : Snapshot) (address : String) : Report :=
  ofResult (Address.ofText address) fun a => ofLines [(s.region a).text]

/-- A byte as the character it stands for, or a dot. -/
def printed (b : UInt8) : Char :=
  if 0x20 ≤ b.toNat ∧ b.toNat < 0x7f then Char.ofNat b.toNat else '.'

/-- Sixteen bytes or fewer in digits and as characters. -/
def byteLine (a : Address) (bytes : List UInt8) : String :=
  let digits := String.intercalate " " (bytes.map fun b => Hex.fixed 2 b.toNat)
  a.text ++ ": " ++ Text.left 47 digits ++ "  " ++ String.ofList (bytes.map printed)

/-- Sixteen bytes a line. The first argument bounds how many lines there can be. -/
def byteLines (start : Address) : Nat → Nat → List UInt8 → List String
  | 0, _, _ => []
  | _ + 1, _, [] => []
  | bound + 1, index, bytes =>
    byteLine (start.saturatingAdd (16 * index)) (bytes.take 16) ::
      byteLines start bound (index + 1) (bytes.drop 16)

def readNote (a : Address) (length : Nat) : MemoryRead → List String
  | .full _ => []
  | .broken bytes stop =>
    let reason := match stop with
      | .unmapped => "unmapped"
      | .notCaptured => "not captured"
    [s!"(read {bytes.size} of {length} bytes; the rest is " ++ reason ++ ")"]
  | .notCaptured => [a.text ++ " is mapped but was not captured in the dump"]
  | .unmapped => [a.text ++ " is not mapped"]

def memory (s : Snapshot) (address : String) (length : Nat) : Report :=
  ofResult (Address.ofText address) fun a =>
    let read := s.read a length
    let bytes := read.bytes.bytes
    ofLines (byteLines a bytes.length 0 bytes ++ readNote a length read)

/-- A place in a module, as its name and an offset. -/
def placeText (s : Snapshot) (a : Address) : String :=
  match s.modules.at? a with
  | none => "?"
  | some m => m.name ++ "+0x" ++ Hex.short ((a.offsetFrom? m.base).getD 0)

def frameLine (s : Snapshot) (frame : Frame) : String :=
  "  #" ++ Text.left 3 (toString frame.index) ++ " " ++ frame.pc.text ++ " sp=" ++
    frame.sp.text ++ " " ++ placeText s frame.pc ++ " (" ++ frame.status.name ++ ")"

/-- The frames of a thread; of the one that crashed, or the first, if none is named. -/
def backtrace (s : Snapshot) (thread : Option Nat) : Report :=
  let index := (thread.or s.crashedThread?).getD 0
  ofResult (s.thread index) fun thread =>
    ofLines (s!"thread {index} (tid {thread.id.toNat}):" :: thread.frames.map (frameLine s))

def ofCommand (s : Snapshot) : Command → Report
  | .info => info s
  | .threads => threads s
  | .registers thread frame names => registers s thread frame names
  | .modules => modules s
  | .regions => regions s
  | .region address => region s address
  | .memory address length => memory s address length
  | .backtrace thread => backtrace s thread

end Report
end CrashDump

import CrashDump.CommandLine.Report
import CrashDump.FileTree
import CrashDump.Snapshot.Load

/-!
# Running a command line

Logging is set up first, which makes the log file; then the environment is read, and last the dump
is loaded and reported on. Files in memory go through the same steps as files on disk, so a whole
run is a function of arguments, environment and files.
-/
namespace CrashDump

structure Outcome where
  code : Nat
  output : String
  error : String
  deriving DecidableEq, Repr

namespace Outcome

def usageText : String :=
  "Usage: mortem [--image-path <DIR>]... [--log-level <LEVEL>] <DUMP> <COMMAND>\n" ++
    "Commands: info, threads, registers [-t N] [-f N] [NAME]..., modules, regions,\n" ++
    "  region <ADDRESS>, memory <ADDRESS> [-l N], backtrace [-t N]\n"

def ofRefusal : Refusal → Outcome
  | .usage => ⟨2, "", usageText⟩
  | .help => ⟨0, usageText, ""⟩
  | .version => ⟨0, "mortem 0.0.0\n", ""⟩

def ofLogFault (fault : LogFault) : Outcome :=
  ⟨1, "", "Failed to initialize logging: " ++ fault.message ++ "\n"⟩

def ofReport (report : Report) : Outcome :=
  match report.fault with
  | none => ⟨0, report.text, ""⟩
  | some fault => ⟨1, report.text, "Error: " ++ fault.message ++ "\n"⟩

/-- The outcome of a program that a library ends. What the library says of it is left out. -/
def halted : Outcome := ⟨101, "", ""⟩

end Outcome

namespace Request

/-- The log file that the request and the environment ask for. -/
def logFile (request : Request) (env : Environment) : Except LogFault (Option LogFile) :=
  { LogSettings.ofEnvironment env with level := request.logLevel }.target

/-- The options of the load: what the environment sets, then the directories that were given. -/
def options (request : Request) (env : Environment) : Except SnapshotFault LoadOptions := do
  let options ← LoadOptions.ofEnvironment env
  .ok { options with imagePaths := options.imagePaths ++ request.imagePaths }

def report (request : Request) (env : Environment) (disk : Disk) : Report :=
  Report.ofResult (request.options env) fun options =>
    Report.ofResult (Snapshot.loadFile request.dump options disk) fun s =>
      Report.ofCommand s request.command

/-- Whether the load ends the program, so that nothing is reported. -/
def halts (request : Request) (env : Environment) (disk : Disk) : Bool :=
  (request.options env).toOption.any fun options => Snapshot.haltsFile request.dump options disk

def outcome (request : Request) (env : Environment) (disk : Disk) : Outcome :=
  if request.halts env disk then .halted else .ofReport (request.report env disk)

/-- The paths that are read once the dump is. -/
def imageCandidates (request : Request) (env : Environment) (dump : Buffer) : List String :=
  match request.options env, Container.parse dump with
  | .ok options, .ok c => ModuleList.candidates c options.imagePaths
  | _, _ => []

end Request

def FileTree.openLog (tree : FileTree) : Option LogFile → FileTree × Except LogFault Unit
  | none => (tree, .ok ())
  | some file =>
    let (tree, result) := tree.append file.directory file.name
    (tree, result.mapError .file)

/-- Does what a request asks for, and gives the files as they are afterwards. -/
def Request.run (request : Request) (env : Environment) (tree : FileTree) : Outcome × FileTree :=
  match request.logFile env with
  | .error fault => (.ofLogFault fault, tree)
  | .ok file =>
    match tree.openLog file with
    | (tree, .error fault) => (.ofLogFault fault, tree)
    | (tree, .ok ()) => (request.outcome env tree.disk, tree)

def runArguments (arguments : List String) (env : Environment) (tree : FileTree) :
    Outcome × FileTree :=
  match Request.ofArguments arguments with
  | .error refusal => (.ofRefusal refusal, tree)
  | .ok request => request.run env tree

end CrashDump

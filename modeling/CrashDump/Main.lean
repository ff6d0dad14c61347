import CrashDump.CommandLine.Run

/-!
# The program

Reads the environment and the files that a run needs, runs, and prints.
-/
namespace CrashDump

/-- The cause that a number of the system stands for. -/
def FileFault.ofError (error : IO.Error) : FileFault :=
  match error with
  | .noFileOrDirectory .. => .notFound
  | .alreadyExists .. => .alreadyExists
  | .inappropriateType _ code _ => if code = 20 then .notDirectory else .isDirectory
  | error => .other (toString error)

def readFile (path : String) : IO (Except FileFault Buffer) := do
  try
    return .ok (← IO.FS.readBinFile path)
  catch error =>
    return .error (FileFault.ofError error)

def readFiles (paths : List String) : IO (List (String × Except FileFault Buffer)) :=
  paths.mapM fun path => do return (path, ← readFile path)

def Disk.ofRead (files : List (String × Except FileFault Buffer)) : Disk :=
  { read := fun path => (files.lookup path).getD (.error .notFound) }

def readEnvironment : IO Environment := do
  let names :=
    [Environment.imagePath, Environment.maxFrames, Environment.logFormat, Environment.logFile]
  let values ← names.mapM fun name => do
    return (← IO.getEnv name).map fun value => (name, value)
  return ⟨values.filterMap id⟩

/-- Reads what a request may look at. -/
def readDisk (request : Request) (env : Environment) : IO Disk := do
  let first ← readFile request.dump
  let candidates := match first with
    | .ok dump => request.imageCandidates env dump
    | .error _ => []
  return Disk.ofRead ((request.dump, first) :: (← readFiles candidates))

/-- Makes a directory, unless it is there. -/
def makeDirectory (path : String) (atEnd made : Bool) : IO (Except FileFault Bool) := do
  try
    IO.FS.createDir path
    return .ok true
  catch error =>
    match FileFault.ofError error, ← readFile path with
    | .alreadyExists, .error .isDirectory => return .ok made
    | .alreadyExists, _ => return .error (.inTheWay atEnd made)
    | fault, _ => return .error fault

/-- Makes directories, each of them in the one before it. -/
def makeDirectories (made : Bool) : List String → IO (Except FileFault Unit)
  | [] => return .ok ()
  | path :: rest => do
    match ← makeDirectory path rest.isEmpty made with
    | .ok made => makeDirectories made rest
    | .error fault => return .error fault

def openLog (file : LogFile) : IO (Except LogFault Unit) := do
  match ← makeDirectories false (FilePath.ancestors file.directory) with
  | .error fault => return .error (.file fault)
  | .ok () =>
    try
      let _ ← IO.FS.Handle.mk (FilePath.join file.directory file.name) .append
      return .ok ()
    catch error =>
      return .error (.file (FileFault.ofError error))

def setUpLogging (request : Request) (env : Environment) : IO (Except LogFault Unit) :=
  match request.logFile env with
  | .error fault => return .error fault
  | .ok none => return .ok ()
  | .ok (some file) => openLog file

def runRequest (request : Request) : IO Outcome := do
  let env ← readEnvironment
  match ← setUpLogging request env with
  | .error fault => return .ofLogFault fault
  | .ok () => return request.outcome env (← readDisk request env)

def printOutcome (outcome : Outcome) : IO UInt32 := do
  (← IO.getStdout).putStr outcome.output
  (← IO.getStderr).putStr outcome.error
  return UInt32.ofNat outcome.code

end CrashDump

def main (arguments : List String) : IO UInt32 := do
  match CrashDump.Request.ofArguments arguments with
  | .error refusal => CrashDump.printOutcome (.ofRefusal refusal)
  | .ok request => CrashDump.printOutcome (← CrashDump.runRequest request)

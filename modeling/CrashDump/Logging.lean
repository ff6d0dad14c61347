import CrashDump.Disk
import CrashDump.Environment

/-!
# Logging settings

Which log lines are wanted, in which form, and whether they go to a file too. No letter outside
ASCII has one of the letters of these names as its small one, so small letters of ASCII are enough
to read them.
-/
namespace CrashDump

inductive LogLevel where
  | error
  | warn
  | info
  | debug
  | trace
  deriving DecidableEq, Repr

inductive LogFormat where
  | pretty
  | json
  deriving DecidableEq, Repr

inductive LogFault where
  | invalidFormat (text : String)
  | invalidLevel (text : String)
  | noFileName
  | file (fault : FileFault)
  deriving DecidableEq, Repr

def LogFault.message : LogFault → String
  | invalidFormat text => "Invalid log format: " ++ text ++ ". Use 'pretty' or 'json'"
  | invalidLevel text =>
    "Invalid log level: " ++ text ++ ". Use 'error', 'warn', 'info', 'debug', or 'trace'"
  | noFileName => "File logging error: log path has no file name"
  | file fault => "File logging error: " ++ fault.message

namespace LogLevel

def name : LogLevel → String
  | error => "Error"
  | warn => "Warn"
  | info => "Info"
  | debug => "Debug"
  | trace => "Trace"

def words : List (String × LogLevel) :=
  [("error", error), ("err", error), ("warn", warn), ("warning", warn), ("info", info),
    ("debug", debug), ("dbg", debug), ("trace", trace)]

def ofText (text : String) : Except LogFault LogLevel :=
  match words.lookup text.toLower with
  | some level => .ok level
  | none => .error (.invalidLevel text)

end LogLevel

namespace LogFormat

def name : LogFormat → String
  | pretty => "Pretty"
  | json => "Json"

def words : List (String × LogFormat) :=
  [("pretty", pretty), ("dev", pretty), ("development", pretty), ("json", json), ("prod", json),
    ("production", json)]

def ofText (text : String) : Except LogFault LogFormat :=
  match words.lookup text.toLower with
  | some format => .ok format
  | none => .error (.invalidFormat text)

end LogFormat

structure LogFile where
  directory : String
  name : String
  deriving DecidableEq, Repr

structure LogSettings where
  level : LogLevel
  format : LogFormat
  file : Option String
  deriving DecidableEq, Repr

namespace LogSettings

/-- What the environment asks for; a format that is no format counts as none, an empty file name
as no file. -/
def ofEnvironment (env : Environment) : LogSettings where
  level := .info
  format := ((env.get? Environment.logFormat).bind fun text =>
    (LogFormat.ofText text).toOption).getD .pretty
  file := (env.get? Environment.logFile).filter fun path => path ≠ ""

/-- The file to write log lines to, in the directory that its path names. -/
def target (settings : LogSettings) : Except LogFault (Option LogFile) :=
  match settings.file with
  | none => .ok none
  | some path =>
    match FilePath.fileName? path with
    | none => .error .noFileName
    | some name => .ok (some ⟨FilePath.parent path, name⟩)

end LogSettings
end CrashDump

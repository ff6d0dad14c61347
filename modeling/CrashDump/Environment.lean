/-!
# Environment

The variables from which settings are read. A variable that is set twice has its last value.
-/
namespace CrashDump

structure Environment where
  settings : List (String × String)
  deriving DecidableEq, Repr

namespace Environment

/-- Names the directories that are searched for module images, separated by colons. -/
def imagePath : String := "MORTEM_IMAGE_PATH"

/-- Limits how many frames are recovered per thread. -/
def maxFrames : String := "MORTEM_MAX_FRAMES"

/-- Chooses the form of log lines. -/
def logFormat : String := "MORTEM_LOG_FORMAT"

/-- Names the log file. -/
def logFile : String := "MORTEM_LOG_FILE"

def get? (env : Environment) (name : String) : Option String :=
  (env.settings.reverse.find? fun entry => entry.1 == name).map Prod.snd

end Environment
end CrashDump

/-!
# Kinds of stream

A dump is a directory of streams, each tagged with its kind. Tags without a kind here are kept in
the directory and not interpreted.
-/
namespace CrashDump

inductive StreamKind where
  | threadList
  | moduleList
  | memoryList
  | exception
  | systemInfo
  | memory64List
  | miscInfo
  | memoryInfoList
  | linuxCpuInfo
  | linuxProcStatus
  | linuxCmdLine
  | linuxEnviron
  | linuxAuxv
  | linuxMaps
  | linuxDsoDebug
  deriving DecidableEq, Repr

namespace StreamKind

def all : List StreamKind :=
  [threadList, moduleList, memoryList, exception, systemInfo, memory64List, miscInfo,
    memoryInfoList, linuxCpuInfo, linuxProcStatus, linuxCmdLine, linuxEnviron, linuxAuxv,
    linuxMaps, linuxDsoDebug]

/-- The tag that marks a kind in the directory. -/
def tag : StreamKind → UInt32
  | threadList => 3
  | moduleList => 4
  | memoryList => 5
  | exception => 6
  | systemInfo => 7
  | memory64List => 9
  | miscInfo => 15
  | memoryInfoList => 16
  | linuxCpuInfo => 0x47670003
  | linuxProcStatus => 0x47670004
  | linuxCmdLine => 0x47670006
  | linuxEnviron => 0x47670007
  | linuxAuxv => 0x47670008
  | linuxMaps => 0x47670009
  | linuxDsoDebug => 0x4767000a

def ofTag? (tag : UInt32) : Option StreamKind := all.find? fun kind => kind.tag == tag

def name : StreamKind → String
  | threadList => "ThreadList"
  | moduleList => "ModuleList"
  | memoryList => "MemoryList"
  | exception => "Exception"
  | systemInfo => "SystemInfo"
  | memory64List => "Memory64List"
  | miscInfo => "MiscInfo"
  | memoryInfoList => "MemoryInfoList"
  | linuxCpuInfo => "LinuxCpuInfo"
  | linuxProcStatus => "LinuxProcStatus"
  | linuxCmdLine => "LinuxCmdLine"
  | linuxEnviron => "LinuxEnviron"
  | linuxAuxv => "LinuxAuxv"
  | linuxMaps => "LinuxMaps"
  | linuxDsoDebug => "LinuxDsoDebug"

/-- The name shown for a stream, known or not. -/
def label (kind : Option StreamKind) : String := kind.elim "Unknown" name

end StreamKind
end CrashDump

import CrashDump.Container.Record
import CrashDump.Memory.Address
import CrashDump.Platform

/-!
# Stop reasons

Why a thread stopped. The exception record of a dump is read by the custom of its system: a number
of an exception on Windows and on Apple's systems, and a signal number everywhere else. One code
says that the dump was asked for, so nothing crashed.
-/
namespace CrashDump

inductive StopReason where
  /-- The thread stopped because the dump was written. -/
  | dumped
  | signal (number : Int32)
  | exception (code : UInt32)
  deriving DecidableEq, Repr

def StopReason.kind : StopReason → String
  | dumped => "none"
  | signal _ => "signal"
  | exception _ => "exception"

structure ThreadStop where
  reason : StopReason
  description : String
  /-- The address at fault, if the exception has one. -/
  faultAddress : Option Address
  deriving DecidableEq, Repr

namespace ThreadStop

def quiet : ThreadStop := ⟨.dumped, "", none⟩

def isCrash (stop : ThreadStop) : Bool := stop.reason ≠ .dumped

def text (stop : ThreadStop) : String :=
  if stop.description = "" then stop.reason.kind else stop.reason.kind ++ ": " ++ stop.description

/-- The code of a dump that was asked for. -/
def requested : UInt32 := 0xffffffff

def signalNames : List String :=
  ["SIGHUP", "SIGINT", "SIGQUIT", "SIGILL", "SIGTRAP", "SIGABRT", "SIGBUS", "SIGFPE", "SIGKILL",
    "SIGUSR1", "SIGSEGV", "SIGUSR2", "SIGPIPE", "SIGALRM", "SIGTERM", "SIGSTKFLT", "SIGCHLD",
    "SIGCONT", "SIGSTOP", "SIGTSTP", "SIGTTIN", "SIGTTOU", "SIGURG", "SIGXCPU", "SIGXFSZ",
    "SIGVTALRM", "SIGPROF", "SIGWINCH", "SIGIO", "SIGPWR", "SIGSYS"]

def machNames : List String :=
  ["EXC_BAD_ACCESS", "EXC_BAD_INSTRUCTION", "EXC_ARITHMETIC", "EXC_EMULATION", "EXC_SOFTWARE",
    "EXC_BREAKPOINT", "EXC_SYSCALL", "EXC_MACH_SYSCALL", "EXC_RPC_ALERT", "EXC_CRASH",
    "EXC_RESOURCE", "EXC_GUARD", "EXC_CORPSE_NOTIFY"]

def windowsNames : List (UInt32 × String) :=
  [(0x40000015, "STATUS_FATAL_APP_EXIT"), (0x80000001, "EXCEPTION_GUARD_PAGE"),
    (0x80000002, "EXCEPTION_DATATYPE_MISALIGNMENT"), (0x80000003, "EXCEPTION_BREAKPOINT"),
    (0x80000004, "EXCEPTION_SINGLE_STEP"), (0xc0000005, "EXCEPTION_ACCESS_VIOLATION"),
    (0xc0000006, "EXCEPTION_IN_PAGE_ERROR"), (0xc0000008, "EXCEPTION_INVALID_HANDLE"),
    (0xc000001d, "EXCEPTION_ILLEGAL_INSTRUCTION"),
    (0xc0000025, "EXCEPTION_NONCONTINUABLE_EXCEPTION"),
    (0xc0000026, "EXCEPTION_INVALID_DISPOSITION"),
    (0xc000008c, "EXCEPTION_ARRAY_BOUNDS_EXCEEDED"),
    (0xc000008d, "EXCEPTION_FLT_DENORMAL_OPERAND"),
    (0xc000008e, "EXCEPTION_FLT_DIVIDE_BY_ZERO"), (0xc000008f, "EXCEPTION_FLT_INEXACT_RESULT"),
    (0xc0000090, "EXCEPTION_FLT_INVALID_OPERATION"), (0xc0000091, "EXCEPTION_FLT_OVERFLOW"),
    (0xc0000092, "EXCEPTION_FLT_STACK_CHECK"), (0xc0000093, "EXCEPTION_FLT_UNDERFLOW"),
    (0xc0000094, "EXCEPTION_INT_DIVIDE_BY_ZERO"), (0xc0000095, "EXCEPTION_INT_OVERFLOW"),
    (0xc0000096, "EXCEPTION_PRIV_INSTRUCTION"), (0xc00000fd, "EXCEPTION_STACK_OVERFLOW"),
    (0xc0000374, "STATUS_HEAP_CORRUPTION"), (0xc0000409, "STATUS_STACK_BUFFER_OVERRUN"),
    (0xc0000417, "STATUS_INVALID_CRUNTIME_PARAMETER"), (0xe06d7363, "EXCEPTION_CXX")]

/-- The entry of a list that is counted from one. -/
def fromOne? (names : List String) (number : Nat) : Option String :=
  if number = 0 then none else names[number - 1]?

def signalName? (code : UInt32) : Option String := fromOne? signalNames code.toNat

def machName? (code : UInt32) : Option String := fromOne? machNames code.toNat

def windowsName? (code : UInt32) : Option String := windowsNames.lookup code

/-- Signals that an instruction raises; only they come with the address at fault. -/
def isFault (code : UInt32) : Bool := [4, 7, 8, 11].contains code

def ofSignal (record : ExceptionRecord) : ThreadStop :=
  let name := "signal " ++ (signalName? record.code).getD (toString record.code.toNat)
  let reason := StopReason.signal record.code.toInt32
  if isFault record.code then
    ⟨reason, name ++ ": fault address " ++ (Address.mk record.address).text, some ⟨record.address⟩⟩
  else ⟨reason, name, none⟩

/-- A Mach exception, with the code that goes with its type. -/
def ofMach (record : ExceptionRecord) : ThreadStop :=
  let name := (machName? record.code).getD ("exception 0x" ++ Hex.short record.code.toNat)
  ⟨.exception record.code,
    name ++ " (code=0x" ++ Hex.short record.flags.toNat ++ ", address=" ++
      (Address.mk record.address).text ++ ")",
    some ⟨record.address⟩⟩

/-- What an access that failed was for. -/
def accessName (kind : UInt64) : String :=
  if kind = 0 then "read" else if kind = 1 then "write" else if kind = 8 then "execute"
  else "access"

/-- Exceptions whose parameters are the kind of an access and the address it was to. -/
def isAccess (code : UInt32) : Bool := code == 0xc0000005 || code == 0xc0000006

def ofWindows (record : ExceptionRecord) : ThreadStop :=
  let name := (windowsName? record.code).getD ("exception 0x" ++ Hex.fixed 8 record.code.toNat)
  if isAccess record.code ∧ record.parameterCount ≥ 2 then
    let target : Address := ⟨record.information[1]⟩
    ⟨.exception record.code,
      name ++ ": " ++ accessName record.information[0] ++ " of " ++ target.text, some target⟩
  else
    let place : Address := ⟨record.address⟩
    ⟨.exception record.code, name ++ " at " ++ place.text, some place⟩

/-- The stop of the thread an exception belongs to. -/
def ofException (platform : Platform) (record : ExceptionRecord) : ThreadStop :=
  if record.code = requested then quiet
  else
    match platform with
    | .windows => ofWindows record
    | .macos | .ios => ofMach record
    | _ => ofSignal record

end ThreadStop
end CrashDump

import CrashDump.Platform

/-!
# Kinds of thread context

The structures in which dumps store the registers of a thread.
-/
namespace CrashDump

/-- A structure of saved registers. 64-bit ARM has a packed one and an aligned one. -/
inductive ContextKind where
  | amd64
  | arm
  | arm64Packed
  | arm64
  deriving DecidableEq, Repr

namespace ContextKind

def architecture : ContextKind → Architecture
  | amd64 => .amd64
  | arm => .arm
  | arm64Packed | arm64 => .arm64

def name : ContextKind → String
  | amd64 => "X86_64"
  | arm => "Arm"
  | arm64Packed => "Arm64Old"
  | arm64 => "Arm64"

end ContextKind
end CrashDump

import CrashDump.Text.Hex

/-!
# Processors and operating systems

What the system information of a dump says about the machine it was written on.
-/
namespace CrashDump

inductive Architecture where
  | amd64
  | arm
  | arm64
  deriving DecidableEq, Repr

namespace Architecture

/-- The family a processor tag stands for; two tags are in use for 64-bit ARM. -/
def ofTag? (tag : UInt16) : Option Architecture :=
  if tag = 9 then some amd64
  else if tag = 5 then some arm
  else if tag = 12 ∨ tag = 0x8003 then some arm64
  else none

def pointerSize : Architecture → Nat
  | arm => 4
  | amd64 | arm64 => 8

def text : Architecture → String
  | amd64 => "x86_64"
  | arm => "arm"
  | arm64 => "arm64"

end Architecture

inductive Platform where
  | windows
  | macos
  | ios
  | linux
  | android
  | solaris
  | fuchsia
  | unknown (id : UInt32)
  deriving DecidableEq, Repr

namespace Platform

def ofId (id : UInt32) : Platform :=
  if id = 2 then windows
  else if id = 0x8101 then macos
  else if id = 0x8102 then ios
  else if id = 0x8201 then linux
  else if id = 0x8202 then solaris
  else if id = 0x8203 then android
  else if id = 0x8206 then fuchsia
  else unknown id

def isApple : Platform → Bool
  | macos | ios => true
  | _ => false

def text : Platform → String
  | windows => "windows"
  | macos => "macos"
  | ios => "ios"
  | linux => "linux"
  | android => "android"
  | solaris => "solaris"
  | fuchsia => "fuchsia"
  | unknown id => "unknown (0x" ++ Hex.short id.toNat ++ ")"

end Platform
end CrashDump

import CrashDump.Fault

/-!
# Diagnostics

What a load left out or found odd without failing, in the order in which it was found.
-/
namespace CrashDump

inductive Diagnostic where
  /-- A stream that is usually present is not. -/
  | missingStream (kind : Option StreamKind)
  /-- A stream of a kind already seen was ignored. -/
  | duplicateStream (kind : Option StreamKind) (offset : UInt32)
  /-- The same bytes of memory were listed again. -/
  | duplicateMemory (range : Interval)
  /-- A stack that overlaps other memory was left out. -/
  | overlappingStack (thread : UInt32) (range : Interval)
  /-- A module was listed again at a higher base and left out. -/
  | duplicateModule (path : String) (base : Address)
  /-- A thread has no registers. -/
  | unusableContext (thread : UInt32) (reason : String)
  /-- The exception belongs to no listed thread. -/
  | unknownExceptionThread (thread : UInt32)
  /-- A file has the name of a module and another identity. -/
  | imageMismatch (name path : String)
  /-- A file with the name of a module is no image. -/
  | imageUnreadable (path reason : String)
  deriving DecidableEq, Repr

namespace Diagnostic

def text : Diagnostic → String
  | missingStream kind => StreamKind.label kind ++ " stream not present"
  | duplicateStream kind offset =>
    "duplicate " ++ StreamKind.label kind ++ " stream at 0x" ++ Hex.short offset.toNat ++ " ignored"
  | duplicateMemory range => "memory range " ++ range.text ++ " captured twice"
  | overlappingStack thread range =>
    "stack " ++ range.text ++ s!" of thread {thread} overlaps captured memory"
  | duplicateModule path base => "module " ++ path ++ " listed again at " ++ base.text
  | unusableContext thread reason =>
    s!"thread {thread} has no usable register context: " ++ reason
  | unknownExceptionThread thread =>
    s!"exception targets thread {thread}, which is not in the thread list"
  | imageMismatch name path => path ++ " does not match the identity of " ++ name
  | imageUnreadable path reason => "cannot read " ++ path ++ ": " ++ reason

end Diagnostic
end CrashDump

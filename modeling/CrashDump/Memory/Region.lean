import CrashDump.Memory.Interval

/-!
# Regions

A mapping is an interval of the address space with its permissions and the file or area behind it.
Every address lies in a region: a mapping, or the gap between two mappings.
-/
namespace CrashDump

structure Permissions where
  read : Bool
  write : Bool
  execute : Bool
  deriving DecidableEq, Repr

namespace Permissions

def noAccess : Permissions := ⟨false, false, false⟩

def readOnly : Permissions := ⟨true, false, false⟩

/-- The permissions held in the three lowest bits: read, write, execute. -/
def ofBits (bits : Nat) : Permissions := ⟨bits.testBit 0, bits.testBit 1, bits.testBit 2⟩

/-- One bit each for read, write and execute, lowest first. -/
def bits (p : Permissions) : Nat := p.read.toNat + 2 * p.write.toNat + 4 * p.execute.toNat

/-- A letter for each permission, or a dash. -/
def text (p : Permissions) : String :=
  String.ofList [if p.read then 'r' else '-', if p.write then 'w' else '-',
    if p.execute then 'x' else '-']

end Permissions

/-- An interval of the address space that the process had mapped. -/
structure Mapping where
  range : Interval
  permissions : Permissions
  name : Option String
  deriving DecidableEq, Repr

def Mapping.text (m : Mapping) : String :=
  m.range.start.text ++ "-" ++ m.range.stop.text ++ " " ++ m.permissions.text ++
    (m.name.elim "" (" " ++ ·))

inductive Region where
  | mapping (m : Mapping)
  | gap (range : Interval)
  deriving DecidableEq, Repr

namespace Region

def range : Region → Interval
  | mapping m => m.range
  | gap range => range

def isMapped : Region → Bool
  | mapping _ => true
  | gap _ => false

/-- Nothing may be done in a gap. -/
def permissions : Region → Permissions
  | mapping m => m.permissions
  | gap _ => Permissions.noAccess

def name : Region → Option String
  | mapping m => m.name
  | gap _ => none

def text : Region → String
  | mapping m => m.text
  | gap range => range.start.text ++ "-" ++ range.stop.text ++ " " ++ Permissions.noAccess.text

end Region
end CrashDump

import CrashDump.Fault
import CrashDump.Text.Blank
import CrashDump.Text.Numeral

/-!
# Addresses as they are typed

An address is typed in base 16 after `0x`, or in base 10. Underscores between digits and blanks
around the number do not count.
-/
namespace CrashDump.Address

/-- A 64-bit number in a base, with underscores anywhere. -/
def typedNumber? (base : Nat) (text : List Char) : Option Nat :=
  Numeral.unsigned? base UInt64.size (text.filter fun c => c != '_')

/-- The number that a text without blanks around it stands for. -/
def typedValue? (text : List Char) : Option Nat :=
  match text with
  | '0' :: 'x' :: digits | '0' :: 'X' :: digits => typedNumber? 16 digits
  | _ => typedNumber? 10 text

def ofText (text : String) : Except SnapshotFault Address :=
  let trimmed := Text.trim text.toList
  match typedValue? trimmed with
  | some n => .ok (ofNat n)
  | none => .error (.badArgument (.address (String.ofList trimmed)))

end CrashDump.Address

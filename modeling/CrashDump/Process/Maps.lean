import CrashDump.Memory.Region
import CrashDump.Text.Blank
import CrashDump.Text.Numeral
import CrashDump.Text.Unicode

/-!
# Memory maps of a process

Reads the list of mappings that Linux keeps for a process, one mapping a line:

```text
400d9000-400db000 r-xp 00000000 b3:04 227        /system/bin/app_process
```

Each line stands alone, so a line that cannot be read costs only its own mapping. That does not hold
of the library by which programs read such lines: it cuts paths at bytes, and where a cut fails it
ends the program. `halts` says of which lines that is true. Here they are read like any other line.
-/
namespace CrashDump

structure MapsEntry where
  range : Interval
  permissions : Permissions
  /-- Whether writes stay with the process. -/
  isPrivate : Bool
  offset : Nat
  path : Option String
  deriving DecidableEq, Repr

namespace MapsEntry

def word? (text : List Char) : Option Nat := Numeral.unsigned? 16 UInt64.size text

/-- The first two pieces of a text that a separator cuts. -/
def twoPieces? (separator : Char) (text : List Char) : Option (List Char × List Char) :=
  match text.splitOn separator with
  | first :: second :: _ => some (first, second)
  | _ => none

def range? (text : List Char) : Option Interval := do
  let (start, stop) ← twoPieces? '-' text
  return ⟨Address.ofNat (← word? start), Address.ofNat (← word? stop)⟩

/-- A device: two signed numbers in base 16 with a colon between them. -/
def isDevice (text : List Char) : Bool :=
  match twoPieces? ':' text with
  | none => false
  | some (major, minor) =>
    (Numeral.signed? 16 (UInt32.size / 2) major).isSome &&
      (Numeral.signed? 16 (UInt32.size / 2) minor).isSome

/-- The stack of a thread, by what its brackets hold: the number after the first colon. -/
def stackName? (inside : List Char) : Option String := do
  let (_, thread) ← twoPieces? ':' inside
  let number ← Numeral.unsigned? 10 UInt32.size thread
  return "[stack:" ++ toString number ++ "]"

/-- The stack of a thread, without the brackets of its path. Where the last character is of several
bytes there is an answer here, though a library that cuts at bytes has none: see `haltsAt`. -/
def threadStack? (path : List Char) : Option String := stackName? path.tail.dropLast

/-- A shared memory segment by its key, a number in base 16 that is shown as a signed one. -/
def segmentName? (key : List Char) : Option String := do
  let key ← Numeral.unsigned? 16 UInt32.size key
  return "Vsys(" ++ toString (UInt32.ofNat key).toInt32.toInt ++ ")"

/-- A shared memory segment: its key in eight digits. Where the path is too short for them, or no
character ends after eight bytes, a library that cuts at bytes has no answer: see `haltsAt`. -/
def sharedMemory? (path : List Char) : Option String := segmentName? ((path.drop 5).take 8)

/-- Whether a path ends a program whose library cuts it at bytes. The last byte is cut off the stack
of a thread, and the key of a segment ends at byte 13; the library does not check that these bytes
are there and that no character is cut in two. `threadStack?` and `sharedMemory?` go by characters,
so they have an answer here too: a key may be too short, and the last character may be of several
bytes. -/
def haltsAt (path : List Char) : Bool :=
  if "[stack:".toList.isPrefixOf path then (Utf8.splitAt? (Utf8.size path - 1) path).isNone
  else if "/SYSV".toList.isPrefixOf path then (Utf8.splitAt? 13 path).isNone
  else false

/-- What is behind a mapping, by the text at the end of its line. -/
def path? (text : List Char) : Option (Option String) :=
  let path := Text.trim text
  if path.isEmpty then some none
  else if path = "[rollup]".toList then some (some "Rollup")
  else if "[stack:".toList.isPrefixOf path then (threadStack? path).map some
  else if "/SYSV".toList.isPrefixOf path then (sharedMemory? path).map some
  else some (some (String.ofList path))

/-- The first `count` pieces between single spaces; the last of them is all that is left. -/
def fields : Nat → List Char → List (List Char)
  | 0, _ => []
  | 1, text => [text]
  | count + 2, text =>
    match text.span fun c => c != ' ' with
    | (first, []) => [first]
    | (first, _ :: rest) => first :: fields (count + 1) rest

/-- The mapping that the fields before the path describe, still without a name. The letters may be
any; only the known ones count. -/
def unnamed? (address letters offset device inode : List Char) : Option MapsEntry := do
  let range ← range? address
  let offset ← word? offset
  if isDevice device && (Numeral.unsigned? 10 UInt64.size inode).isSome then
    return ⟨range, ⟨letters.contains 'r', letters.contains 'w', letters.contains 'x'⟩,
      letters.contains 'p', offset, none⟩
  else none

/-- The mapping of a line before its path is read, and the path. -/
def beforePath? (line : List Char) : Option (MapsEntry × List Char) :=
  match line with
  | [] => none
  | c :: _ =>
    if 'A' ≤ c ∧ c ≤ 'Z' then none
    else
      match fields 6 line with
      | [address, letters, offset, device, inode, path] =>
        (unnamed? address letters offset device inode).map fun entry => (entry, path)
      | _ => none

def ofLine? (line : List Char) : Option MapsEntry := do
  let (entry, path) ← beforePath? line
  return { entry with path := ← path? path }

/-- Whether a line ends a program whose library cuts paths at bytes. The path is read last. -/
def halts (line : List Char) : Bool :=
  (beforePath? line).any fun (_, path) => haltsAt (Text.trim path)

/-- Reads every line that can be read; a mapping that ends before it starts is left out. -/
def ofText (text : String) : List MapsEntry :=
  let lines := (Text.lines text.toList).filter fun line => !(Text.trim line).isEmpty
  (lines.filterMap ofLine?).filter fun entry => entry.range.start ≤ entry.range.stop

/-- Whether one of the lines ends a program whose library cuts paths at bytes. -/
def haltsIn (text : String) : Bool := (Text.lines text.toList).any halts

end MapsEntry
end CrashDump

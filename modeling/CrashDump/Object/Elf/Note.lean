import CrashDump.Object.Elf.Header

/-!
# ELF notes

Notes follow one another, each a name and a descriptor after three numbers, with both texts padded.
The build identifier of a file is the descriptor of one of them. Notes are looked for in sections if
the file has any, and in segments otherwise.
-/
namespace CrashDump.Elf

open ObjectFile

/-- The next multiple of `unit` that is not below `n`. -/
def roundUp (n unit : Nat) : Nat := (n + unit - 1) / unit * unit

/-- Whether a note holds a build identifier: its name but for NULs at the end is `GNU`, its type
three. -/
def isBuildId (name : List UInt8) (type : Nat) : Bool :=
  (name.reverse.dropWhile fun b => b == 0).reverse == [0x47, 0x4e, 0x55] && type == 3

/-- The descriptor of the first note from `place` on that holds a build identifier. The outer answer
is missing if a note before it is broken. The first argument bounds how many notes there can be. -/
def buildIdFrom (order : ByteOrder) (unit : Nat) (notes : Buffer) :
    Nat → Nat → Option (Option (List UInt8))
  | 0, _ => some none
  | bound + 1, place =>
    if notes.size ≤ place then some none
    else if notes.size < place + 12 then none
    else
      let nameSize := field order notes ⟨place, 4⟩
      let size := field order notes ⟨place + 4, 4⟩
      let type := field order notes ⟨place + 8, 4⟩
      let start := place + roundUp (12 + nameSize) unit
      match notes.slice? (place + 12) nameSize, notes.slice? start size with
      | some name, some descriptor =>
        if isBuildId name.bytes type then some (some descriptor.bytes)
        else
          buildIdFrom order unit notes bound (place + roundUp (start - place + size) unit)
      | _, _ => none

/-- The build identifier in a run of notes with the given alignment. -/
def buildIdIn (order : ByteOrder) (alignment : Nat) (notes : Buffer) :
    Option (Option (List UInt8)) :=
  if alignment ≤ 4 then buildIdFrom order 4 notes notes.size 0
  else if alignment = 8 then buildIdFrom order 8 notes notes.size 0
  else none

/-- The first build identifier found; a broken note ends the search without one. -/
def firstFound : List (Option (Option (List UInt8))) → Option (List UInt8)
  | [] => none
  | none :: _ => none
  | some none :: rest => firstFound rest
  | some (some id) :: _ => some id

/-- The build identifier of a file with the given headers. -/
def buildId (image : Image) (programs : List Program) (sections : List Section) :
    Option (List UInt8) :=
  if sections.isEmpty then
    firstFound ((programs.filter fun p => p.kind == 4).map fun p =>
      (part? image.data p.offset p.fileSize).bind (buildIdIn image.order p.alignment))
  else
    firstFound ((sections.filter fun s => s.kind == 7).map fun s =>
      (s.bytes? image.data).bind (buildIdIn image.order s.alignment))

end CrashDump.Elf

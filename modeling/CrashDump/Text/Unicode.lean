import CrashDump.Bytes.LittleEndian

/-!
# Decoding text

UTF-8 and UTF-16 are read to the end whatever they hold. Bytes that begin no character, or break
one off, become one replacement character for each longest broken piece; so does a surrogate
without its partner.
-/
namespace CrashDump

def replacement : Char := '\uFFFD'

namespace Utf8

/-- A character begun: `left` bytes are to come, the next of them from `low` to `high`. -/
structure Pending where
  left : Nat
  low : Nat
  high : Nat
  bits : Nat
  deriving DecidableEq, Repr

/-- What a byte does where no character is pending. -/
def start (b : UInt8) : List Char × Option Pending :=
  let n := b.toNat
  if n < 0x80 then ([Char.ofNat n], none)
  else if n < 0xc2 then ([replacement], none)
  else if n < 0xe0 then ([], some ⟨1, 0x80, 0xbf, n - 0xc0⟩)
  else if n = 0xe0 then ([], some ⟨2, 0xa0, 0xbf, 0⟩)
  else if n = 0xed then ([], some ⟨2, 0x80, 0x9f, 0xd⟩)
  else if n < 0xf0 then ([], some ⟨2, 0x80, 0xbf, n - 0xe0⟩)
  else if n = 0xf0 then ([], some ⟨3, 0x90, 0xbf, 0⟩)
  else if n < 0xf4 then ([], some ⟨3, 0x80, 0xbf, n - 0xf0⟩)
  else if n = 0xf4 then ([], some ⟨3, 0x80, 0x8f, 4⟩)
  else ([replacement], none)

/-- The characters a byte completes, and what is pending after it. -/
def step (pending : Option Pending) (b : UInt8) : List Char × Option Pending :=
  match pending with
  | none => start b
  | some p =>
    if p.low ≤ b.toNat ∧ b.toNat ≤ p.high then
      let bits := p.bits * 64 + (b.toNat - 0x80)
      if p.left ≤ 1 then ([Char.ofNat bits], none)
      else ([], some ⟨p.left - 1, 0x80, 0xbf, bits⟩)
    else (replacement :: (start b).1, (start b).2)

/-- The characters of the bytes, given what is pending. -/
def decodeFrom : Option Pending → List UInt8 → List Char
  | none, [] => []
  | some _, [] => [replacement]
  | pending, b :: bytes => (step pending b).1 ++ decodeFrom (step pending b).2 bytes

def decode (bytes : List UInt8) : String := String.ofList (decodeFrom none bytes)

/-- The number of bytes that a text is encoded in. -/
def size : List Char → Nat
  | [] => 0
  | c :: rest => c.utf8Size + size rest

/-- A text cut in two at a byte of its encoding, unless that is inside a character or beyond the
end. -/
def splitAt? : Nat → List Char → Option (List Char × List Char)
  | 0, text => some ([], text)
  | _ + 1, [] => none
  | count + 1, c :: rest =>
    if c.utf8Size ≤ count + 1 then
      (splitAt? (count + 1 - c.utf8Size) rest).map fun (front, back) => (c :: front, back)
    else none

end Utf8

namespace Utf16

/-- The first half of a pair. -/
def isHigh (unit : UInt16) : Bool := 0xd800 ≤ unit.toNat && unit.toNat < 0xdc00

/-- The second half of a pair. -/
def isLow (unit : UInt16) : Bool := 0xdc00 ≤ unit.toNat && unit.toNat < 0xe000

def pair (high low : UInt16) : Char :=
  Char.ofNat (0x10000 + (high.toNat - 0xd800) * 0x400 + (low.toNat - 0xdc00))

/-- What a unit does where no first half is pending. -/
def start (unit : UInt16) : List Char × Option UInt16 :=
  if isHigh unit then ([], some unit)
  else if isLow unit then ([replacement], none)
  else ([Char.ofNat unit.toNat], none)

/-- The characters a unit completes, and the first half that is pending after it. -/
def step (pending : Option UInt16) (unit : UInt16) : List Char × Option UInt16 :=
  match pending with
  | none => start unit
  | some high =>
    if isLow unit then ([pair high unit], none)
    else (replacement :: (start unit).1, (start unit).2)

/-- The characters of the units, given the first half that is pending. -/
def decodeFrom : Option UInt16 → List UInt16 → List Char
  | none, [] => []
  | some _, [] => [replacement]
  | pending, unit :: units => (step pending unit).1 ++ decodeFrom (step pending unit).2 units

/-- The characters that units stand for. -/
def decode (units : List UInt16) : List Char := decodeFrom none units

/-- The units stored in the bytes, low byte first; an odd last byte is no unit. -/
def units : List UInt8 → List UInt16
  | low :: high :: bytes => UInt16.ofNat (LittleEndian.value [low, high]) :: units bytes
  | _ => []

def encodeChar (c : Char) : List UInt16 :=
  if c.toNat < 0x10000 then [UInt16.ofNat c.toNat]
  else [UInt16.ofNat (0xd800 + (c.toNat - 0x10000) / 0x400),
    UInt16.ofNat (0xdc00 + (c.toNat - 0x10000) % 0x400)]

def encode (text : List Char) : List UInt16 := text.flatMap encodeChar

/-- Units as stored, low byte first. -/
def unitBytes (units : List UInt16) : List UInt8 :=
  units.flatMap fun unit => LittleEndian.bytes 2 unit.toNat

end Utf16
end CrashDump

import CrashDump.Bytes.Reader

/-!
# Buffers

A buffer is read through bounds-checked slices and through records at an offset. Nothing here can
look outside it.
-/
namespace CrashDump

/-- A run of bytes addressed by offset. -/
abbrev Buffer := ByteArray

instance (priority := 2000) : DecidableEq Buffer := ByteArray.instDecidableEq

namespace Buffer

def bytes (data : Buffer) : List UInt8 := data.data.toList

def ofBytes (bytes : List UInt8) : Buffer := ⟨bytes.toArray⟩

/-- `length` bytes from `offset`, when all of them are there. -/
def slice? (data : Buffer) (offset length : Nat) : Option Buffer :=
  if offset + length ≤ data.size then some (data.extract offset (offset + length)) else none

def readAt {α : Type} [Record α] (data : Buffer) (offset : Nat) : Except ReadFault α :=
  if data.size < offset then .error (.badOffset offset)
  else (Record.read : Reader α).run' (bytes (data.extract offset (offset + Record.size α)))

/-- The little-endian number in `width` bytes at `offset`, when they are there. -/
def word? (data : Buffer) (width offset : Nat) : Option Nat :=
  (slice? data offset width).map fun field => LittleEndian.value (bytes field)

@[simp] theorem bytes_ofBytes (bs : List UInt8) : bytes (ofBytes bs) = bs := rfl

theorem length_bytes (data : Buffer) : data.bytes.length = data.size := by
  simp [bytes, ← ByteArray.size_data]

theorem bytes_append (x y : Buffer) : bytes (x ++ y) = x.bytes ++ y.bytes :=
  ByteArray.toList_data_append

theorem bytes_extract (x : Buffer) (start stop : Nat) :
    bytes (x.extract start stop) = (x.bytes.drop start).take (stop - start) := by
  simp [bytes, ByteArray.data_extract]

theorem ext_bytes {x y : Buffer} (h : x.bytes = y.bytes) : x = y :=
  ByteArray.ext (Array.toList_inj.1 h)

/-- The first bytes of a buffer and the rest of it. -/
theorem extract_append {x : Buffer} {m n : Nat} (h : x.size = m + n) :
    x.extract 0 m ++ x.extract m (m + n) = x := by
  rw [ByteArray.extract_append_extract, Nat.zero_min, Nat.max_eq_right (Nat.le_add_right m n),
    ← h, ByteArray.extract_zero_size]

theorem slice?_eq_some_iff {data slice : Buffer} {offset length : Nat} :
    data.slice? offset length = some slice ↔
      offset + length ≤ data.size ∧ data.extract offset (offset + length) = slice := by
  simp [slice?]

theorem size_of_slice? {data slice : Buffer} {offset length : Nat}
    (h : data.slice? offset length = some slice) : slice.size = length := by
  obtain ⟨hle, rfl⟩ := slice?_eq_some_iff.1 h
  simp only [ByteArray.size_extract]
  omega

end Buffer
end CrashDump

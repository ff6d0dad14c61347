import CrashDump.Bytes.LittleEndian

/-!
# Records of fixed size

A `Reader` takes fields off the front of a list of bytes and says how many bytes were missing when
one does not fit. `Record` pairs the reader of a fixed-size value with its writer, and
`LawfulRecord` says that reading undoes writing and leaves what follows.
-/
namespace CrashDump

inductive ReadFault where
  /-- The record starts beyond the end. -/
  | badOffset (offset : Nat)
  /-- A field of `width` bytes meets only `left` bytes. -/
  | short (width left : Nat)
  deriving DecidableEq, Repr

/-- Takes a value off the front of a list of bytes. -/
abbrev Reader (α : Type) := StateT (List UInt8) (Except ReadFault) α

namespace Reader

def take (width : Nat) : Reader (List UInt8) := fun bytes =>
  let front := bytes.take width
  if front.length = width then .ok (front, bytes.drop width)
  else .error (.short width bytes.length)

/-- The next `width` bytes as a little-endian number. -/
def word (width : Nat) : Reader Nat := do
  return LittleEndian.value (← take width)

def rest : Reader (List UInt8) := fun bytes => .ok (bytes, [])

/-- A row of `count` values, read one after another. -/
def row {α : Type} (reader : Reader α) : (count : Nat) → Reader (Vector α count)
  | 0 => pure #v[]
  | count + 1 => do
    let front ← row reader count
    return front.push (← reader)

theorem take_append {as : List UInt8} (bs : List UInt8) {width : Nat} (h : as.length = width) :
    take width (as ++ bs) = .ok (as, bs) := by
  subst h
  simp [take]

/-- What comes after a reader gets its value and what it leaves. -/
theorem bind_eq {α β : Type} {reader : Reader α} {next : α → Reader β} {bytes rest : List UInt8}
    {a : α} (h : reader bytes = .ok (a, rest)) : (reader >>= next) bytes = next a rest := by
  change Except.bind (reader bytes) _ = _
  rw [h]
  rfl

theorem word_bytes (width n : Nat) (rest : List UInt8) :
    word width (LittleEndian.bytes width n ++ rest) = .ok (n % LittleEndian.count width, rest) := by
  have h := take_append rest (LittleEndian.length_bytes width n)
  rw [word, bind_eq h, LittleEndian.value_bytes]
  rfl

end Reader

/-- A value of fixed size: its reader and its writer. -/
class Record (α : Type) where
  size : Nat
  read : Reader α
  write : α → List UInt8

/-- Reading undoes writing, whatever follows. -/
class LawfulRecord (α : Type) [Record α] : Prop where
  length_write : ∀ r : α, (Record.write r).length = Record.size α
  read_write : ∀ (r : α) (rest : List UInt8),
    (Record.read : Reader α) (Record.write r ++ rest) = .ok (r, rest)

theorem Reader.read_bind {α β : Type} [Record α] [LawfulRecord α] (r : α) (rest : List UInt8)
    (next : α → Reader β) :
    ((Record.read : Reader α) >>= next) (Record.write r ++ rest) = next r rest := by
  simp only [bind, StateT.bind, LawfulRecord.read_write, Except.bind]

instance : Record UInt8 where
  size := 1
  read := do return UInt8.ofNat (← Reader.word 1)
  write n := LittleEndian.bytes 1 n.toNat

instance : Record UInt16 where
  size := 2
  read := do return UInt16.ofNat (← Reader.word 2)
  write n := LittleEndian.bytes 2 n.toNat

instance : Record UInt32 where
  size := 4
  read := do return UInt32.ofNat (← Reader.word 4)
  write n := LittleEndian.bytes 4 n.toNat

instance : Record UInt64 where
  size := 8
  read := do return UInt64.ofNat (← Reader.word 8)
  write n := LittleEndian.bytes 8 n.toNat

/-- A row is read value by value, so a row that is cut off fails at the size of one value. -/
instance {α : Type} [Record α] {count : Nat} : Record (Vector α count) where
  size := count * Record.size α
  read := Reader.row Record.read count
  write values := values.toList.flatMap Record.write

theorem Reader.row_write {α : Type} [Record α] [LawfulRecord α] {count : Nat}
    (values : Vector α count) (rest : List UInt8) :
    Reader.row Record.read count (values.toList.flatMap Record.write ++ rest) =
      .ok (values, rest) := by
  induction count generalizing rest with
  | zero =>
    have h : values = #v[] := Vector.eq_empty
    subst h
    rfl
  | succ count ih =>
    have h : values = values.pop.push values.back := (Vector.push_pop_back values).symm
    rw [h]
    simp only [Vector.toList_push, List.flatMap_append, List.flatMap_cons, List.flatMap_nil,
      List.append_nil, List.append_assoc, Reader.row, bind, StateT.bind, ih, Except.bind,
      LawfulRecord.read_write]
    rfl

instance {α : Type} [Record α] [LawfulRecord α] {count : Nat} :
    LawfulRecord (Vector α count) where
  length_write values := by
    have h : ∀ l : List α, (l.flatMap Record.write).length = l.length * Record.size α := by
      intro l
      induction l with
      | nil => simp
      | cons a l ih => simp [ih, LawfulRecord.length_write, Nat.succ_mul, Nat.add_comm]
    show (values.toList.flatMap Record.write).length = count * Record.size α
    rw [h, Vector.length_toList]
  read_write values rest := Reader.row_write values rest

instance : LawfulRecord UInt8 where
  length_write _ := LittleEndian.length_bytes ..
  read_write n rest := by
    have h : n.toNat % LittleEndian.count 1 = n.toNat := Nat.mod_eq_of_lt n.toNat_lt_size
    have hr := Reader.word_bytes 1 n.toNat rest
    rw [h] at hr
    change (Reader.word 1 >>= fun word => pure (UInt8.ofNat word))
      (LittleEndian.bytes 1 n.toNat ++ rest) = _
    rw [Reader.bind_eq hr, UInt8.ofNat_toNat]
    rfl

instance : LawfulRecord UInt16 where
  length_write _ := LittleEndian.length_bytes ..
  read_write n rest := by
    have h : n.toNat % LittleEndian.count 2 = n.toNat := Nat.mod_eq_of_lt n.toNat_lt_size
    have hr := Reader.word_bytes 2 n.toNat rest
    rw [h] at hr
    change (Reader.word 2 >>= fun word => pure (UInt16.ofNat word))
      (LittleEndian.bytes 2 n.toNat ++ rest) = _
    rw [Reader.bind_eq hr, UInt16.ofNat_toNat]
    rfl

instance : LawfulRecord UInt32 where
  length_write _ := LittleEndian.length_bytes ..
  read_write n rest := by
    have h : n.toNat % LittleEndian.count 4 = n.toNat := Nat.mod_eq_of_lt n.toNat_lt_size
    have hr := Reader.word_bytes 4 n.toNat rest
    rw [h] at hr
    change (Reader.word 4 >>= fun word => pure (UInt32.ofNat word))
      (LittleEndian.bytes 4 n.toNat ++ rest) = _
    rw [Reader.bind_eq hr, UInt32.ofNat_toNat]
    rfl

instance : LawfulRecord UInt64 where
  length_write _ := LittleEndian.length_bytes ..
  read_write n rest := by
    have h : n.toNat % LittleEndian.count 8 = n.toNat := Nat.mod_eq_of_lt n.toNat_lt_size
    have hr := Reader.word_bytes 8 n.toNat rest
    rw [h] at hr
    change (Reader.word 8 >>= fun word => pure (UInt64.ofNat word))
      (LittleEndian.bytes 8 n.toNat ++ rest) = _
    rw [Reader.bind_eq hr, UInt64.ofNat_toNat]
    rfl

end CrashDump

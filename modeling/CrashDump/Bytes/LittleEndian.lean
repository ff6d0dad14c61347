/-!
# Little-endian numbers

`bytes` writes a number as a fixed count of bytes, lowest first, and `value` reads such bytes back.
`value_bytes` and `bytes_value` say that each undoes the other within the width.
-/
namespace CrashDump.LittleEndian

/-- The number whose base-256 digits are the given bytes, lowest first. -/
def value : List UInt8 → Nat
  | [] => 0
  | b :: bs => b.toNat + 256 * value bs

/-- The lowest `width` bytes of a number, lowest first. -/
def bytes : Nat → Nat → List UInt8
  | 0, _ => []
  | width + 1, n => UInt8.ofNat n :: bytes width (n / 256)

/-- How many numbers fit into so many bytes. -/
def count : Nat → Nat
  | 0 => 1
  | width + 1 => 256 * count width

@[simp] theorem value_nil : value [] = 0 := rfl

@[simp] theorem value_cons (b : UInt8) (bs : List UInt8) :
    value (b :: bs) = b.toNat + 256 * value bs := rfl

@[simp] theorem length_bytes (width n : Nat) : (bytes width n).length = width := by
  induction width generalizing n with
  | zero => rfl
  | succ width ih => simp [bytes, ih]

theorem value_lt (bs : List UInt8) : value bs < count bs.length := by
  induction bs with
  | nil => exact Nat.one_pos
  | cons b bs ih =>
    have hb := b.toNat_lt
    simp only [value_cons, List.length_cons, count]
    omega

theorem value_bytes (width n : Nat) : value (bytes width n) = n % count width := by
  induction width generalizing n with
  | zero => exact (Nat.mod_one n).symm
  | succ width ih =>
    have hb : (UInt8.ofNat n).toNat = n % 256 := UInt8.toNat_ofNat'
    rw [bytes, value_cons, ih, hb, count, Nat.mod_mul]

theorem bytes_value (bs : List UInt8) : bytes bs.length (value bs) = bs := by
  induction bs with
  | nil => rfl
  | cons b bs ih =>
    have hb := b.toNat_lt
    have hd : (b.toNat + 256 * value bs) / 256 = value bs := by omega
    have hm : UInt8.ofNat (b.toNat + 256 * value bs) = b := by
      apply UInt8.toNat_inj.1
      rw [UInt8.toNat_ofNat']
      omega
    simp only [List.length_cons, bytes, value_cons, hd, ih, hm]

/-- The lowest bytes of a number are those of a narrower one. -/
theorem take_bytes {width narrow : Nat} (h : narrow ≤ width) (n : Nat) :
    (bytes width n).take narrow = bytes narrow n := by
  induction narrow generalizing width n with
  | zero => rfl
  | succ narrow ih =>
    cases width with
    | zero => omega
    | succ width => simp [bytes, ih (Nat.le_of_succ_le_succ h)]

theorem value_append (as bs : List UInt8) :
    value (as ++ bs) = value as + count as.length * value bs := by
  induction as with
  | nil => simp [count]
  | cons a as ih =>
    simp only [List.cons_append, value_cons, ih, List.length_cons, count]
    rw [Nat.mul_add, ← Nat.mul_assoc, Nat.add_assoc]

end CrashDump.LittleEndian

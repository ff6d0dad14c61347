import CrashDump.Text.Hex

/-!
# Addresses

An address is a 64-bit word, ordered by its number. `toNat` is the view through which sums and
differences are stated: `add?` and `sub?` answer only what fits, `saturatingAdd` stops at the top,
and `+` and `-` wrap.
-/
namespace CrashDump

/-- A place in the address space of the dumped process. -/
structure Address where
  value : UInt64
  deriving DecidableEq, Repr, Inhabited

namespace Address

def toNat (a : Address) : Nat := a.value.toNat

/-- The address with the given number, which wraps at 64 bits. -/
def ofNat (n : Nat) : Address := ⟨UInt64.ofNat n⟩

def zero : Address := ⟨0⟩

def top : Address := ⟨0xffffffffffffffff⟩

instance : LE Address := ⟨fun a b => a.toNat ≤ b.toNat⟩
instance : LT Address := ⟨fun a b => a.toNat < b.toNat⟩
instance (a b : Address) : Decidable (a ≤ b) := inferInstanceAs (Decidable (a.toNat ≤ b.toNat))
instance (a b : Address) : Decidable (a < b) := inferInstanceAs (Decidable (a.toNat < b.toNat))
instance : Ord Address := ⟨fun a b => compare a.toNat b.toNat⟩
instance : Max Address := ⟨fun a b => if a ≤ b then b else a⟩
instance : Min Address := ⟨fun a b => if a ≤ b then a else b⟩

/-- The address `n` bytes further on, when there is one. -/
def add? (a : Address) (n : Nat) : Option Address :=
  if a.toNat + n < UInt64.size then some (ofNat (a.toNat + n)) else none

/-- The address `n` bytes before, when there is one. -/
def sub? (a : Address) (n : Nat) : Option Address :=
  if n ≤ a.toNat then some (ofNat (a.toNat - n)) else none

/-- The address `n` bytes further on, or the highest one. -/
def saturatingAdd (a : Address) (n : Nat) : Address := (a.add? n).getD top

/-- How many bytes `a` lies above `b`, unless it lies below. -/
def offsetFrom? (a b : Address) : Option Nat :=
  if b ≤ a then some (a.toNat - b.toNat) else none

instance : HAdd Address UInt64 Address := ⟨fun a n => ⟨a.value + n⟩⟩
instance : HSub Address UInt64 Address := ⟨fun a n => ⟨a.value - n⟩⟩

/-- Sixteen digits after `0x`. -/
def text (a : Address) : String := "0x" ++ Hex.fixed 16 a.toNat

theorem toNat_lt (a : Address) : a.toNat < UInt64.size := a.value.toNat_lt_size

theorem le_def {a b : Address} : a ≤ b ↔ a.toNat ≤ b.toNat := Iff.rfl

theorem lt_def {a b : Address} : a < b ↔ a.toNat < b.toNat := Iff.rfl

theorem ext_toNat {a b : Address} (h : a.toNat = b.toNat) : a = b := by
  cases a
  cases b
  exact congrArg _ (UInt64.toNat_inj.1 h)

theorem toNat_inj {a b : Address} : a.toNat = b.toNat ↔ a = b := ⟨ext_toNat, congrArg _⟩

theorem toNat_ofNat {n : Nat} (h : n < UInt64.size) : (ofNat n).toNat = n := by
  rw [ofNat, toNat, UInt64.toNat_ofNat', Nat.mod_eq_of_lt h]

@[simp] theorem toNat_top : top.toNat = UInt64.size - 1 := rfl

theorem toNat_max (a b : Address) : (max a b).toNat = max a.toNat b.toNat := by
  simp only [max, le_def]
  split <;> rfl

theorem toNat_min (a b : Address) : (min a b).toNat = min a.toNat b.toNat := by
  simp only [min, le_def]
  split <;> rfl

theorem add?_eq_some_iff {a b : Address} {n : Nat} :
    a.add? n = some b ↔ b.toNat = a.toNat + n := by
  constructor
  · intro h
    simp only [add?, Option.ite_none_right_eq_some, Option.some.injEq] at h
    obtain ⟨hlt, rfl⟩ := h
    exact toNat_ofNat hlt
  · intro h
    have hlt := b.toNat_lt
    rw [h] at hlt
    rw [add?, if_pos hlt, ← h]
    exact congrArg some (ext_toNat (toNat_ofNat b.toNat_lt))

theorem exists_add? {a b : Address} {n : Nat} (h : a.toNat + n ≤ b.toNat) :
    ∃ c, a.add? n = some c := by
  have hb := b.toNat_lt
  exact ⟨_, if_pos (by omega)⟩

theorem sub?_eq_some_iff {a b : Address} {n : Nat} :
    a.sub? n = some b ↔ b.toNat + n = a.toNat := by
  have ha := a.toNat_lt
  constructor
  · intro h
    simp only [sub?, Option.ite_none_right_eq_some, Option.some.injEq] at h
    obtain ⟨hle, rfl⟩ := h
    rw [toNat_ofNat (by omega)]
    omega
  · intro h
    rw [sub?, if_pos (by omega)]
    refine congrArg some (ext_toNat ?_)
    rw [toNat_ofNat (by omega)]
    omega

theorem offsetFrom?_eq_some_iff {a b : Address} {n : Nat} :
    a.offsetFrom? b = some n ↔ a.toNat = b.toNat + n := by
  simp only [offsetFrom?, le_def, Option.ite_none_right_eq_some, Option.some.injEq]
  omega

end Address
end CrashDump

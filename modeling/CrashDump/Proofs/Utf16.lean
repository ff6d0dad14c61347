import CrashDump.Text.Unicode
import Mathlib

/-!
# Text in UTF-16

Decoding undoes encoding for every text, characters that take a pair of units included. Units are
read back from their bytes, and a byte without a partner is passed over.
-/
namespace CrashDump.Utf16

theorem toNat_ofNat_eq {n : Nat} (h : n < 2 ^ 16) : (UInt16.ofNat n).toNat = n := by
  rw [UInt16.toNat_ofNat', Nat.mod_eq_of_lt h]

theorem isHigh_iff {unit : UInt16} :
    isHigh unit = true ↔ 0xd800 ≤ unit.toNat ∧ unit.toNat < 0xdc00 := by
  simp [isHigh]

theorem isLow_iff {unit : UInt16} :
    isLow unit = true ↔ 0xdc00 ≤ unit.toNat ∧ unit.toNat < 0xe000 := by
  simp [isLow]

/-- No character is a half of a pair. -/
theorem toNat_not_surrogate (c : Char) : c.toNat < 0xd800 ∨ 0xe000 ≤ c.toNat ∧ c.toNat < 0x110000 :=
  c.valid.imp_right fun h => ⟨h.1, h.2⟩

theorem start_single {c : Char} (hc : c.toNat < 0x10000) :
    start (UInt16.ofNat c.toNat) = ([c], none) := by
  have hunit := toNat_ofNat_eq hc
  have hvalid := toNat_not_surrogate c
  have hhigh : ¬isHigh (UInt16.ofNat c.toNat) = true := by
    rw [isHigh_iff, hunit]
    omega
  have hlow : ¬isLow (UInt16.ofNat c.toNat) = true := by
    rw [isLow_iff, hunit]
    omega
  rw [start, if_neg hhigh, if_neg hlow, hunit, Char.ofNat_toNat]

/-- A pair is read as the character that has ten bits in each half. -/
theorem decodeFrom_pair {c : Char} {high low : UInt16} {bits : Nat} (hbits : bits < 0x100000)
    (hc : c.toNat = 0x10000 + bits) (hhigh : high.toNat = 0xd800 + bits / 0x400)
    (hlow : low.toNat = 0xdc00 + bits % 0x400) (rest : List UInt16) :
    decodeFrom none (high :: low :: rest) = c :: decodeFrom none rest := by
  have hfirst : isHigh high = true := isHigh_iff.2 (by omega)
  have hsecond : isLow low = true := isLow_iff.2 (by omega)
  have hnumber : 0x10000 + (high.toNat - 0xd800) * 0x400 + (low.toNat - 0xdc00) = c.toNat := by
    omega
  have hpair : pair high low = c := by
    rw [pair, hnumber, Char.ofNat_toNat]
  simp [decodeFrom, step, start, hfirst, hsecond, hpair]

theorem decodeFrom_encodeChar (c : Char) (rest : List UInt16) :
    decodeFrom none (encodeChar c ++ rest) = c :: decodeFrom none rest := by
  unfold encodeChar
  split
  · next hc => simp [decodeFrom, step, start_single hc]
  · next hc =>
    have hvalid := toNat_not_surrogate c
    have hbits : c.toNat - 0x10000 < 0x100000 := by omega
    refine decodeFrom_pair hbits ?_ (toNat_ofNat_eq ?_) (toNat_ofNat_eq ?_) rest
    · omega
    · omega
    · omega

theorem decode_encode (text : List Char) : decode (encode text) = text := by
  induction text with
  | nil => rfl
  | cons c text ih =>
    rw [decode, encode, List.flatMap_cons, decodeFrom_encodeChar]
    exact congrArg (c :: ·) ih

theorem unitBytes_cons (unit : UInt16) (rest : List UInt16) :
    unitBytes (unit :: rest) = LittleEndian.bytes 2 unit.toNat ++ unitBytes rest := rfl

theorem units_unitBytes (text : List UInt16) : units (unitBytes text) = text := by
  induction text with
  | nil => rfl
  | cons unit text ih =>
    have hvalue : LittleEndian.value (LittleEndian.bytes 2 unit.toNat) = unit.toNat := by
      rw [LittleEndian.value_bytes]
      exact Nat.mod_eq_of_lt unit.toNat_lt
    rw [unitBytes_cons]
    change UInt16.ofNat (LittleEndian.value (LittleEndian.bytes 2 unit.toNat)) ::
      units (unitBytes text) = _
    rw [hvalue, ih, UInt16.ofNat_toNat]

theorem units_of_short {bytes : List UInt8} (h : bytes.length ≤ 1) : units bytes = [] := by
  match bytes with
  | [] => rfl
  | [_] => rfl
  | _ :: _ :: _ => simp at h

/-- A last byte that has no partner is no unit. -/
theorem units_append {bytes extra : List UInt8} (hbytes : bytes.length % 2 = 0)
    (hextra : extra.length ≤ 1) : units (bytes ++ extra) = units bytes := by
  match bytes with
  | [] => exact units_of_short hextra
  | [_] => simp at hbytes
  | low :: high :: rest =>
    have hrest : rest.length % 2 = 0 := by
      simp only [List.length_cons] at hbytes
      omega
    exact congrArg (UInt16.ofNat (LittleEndian.value [low, high]) :: ·) (units_append hrest hextra)

end CrashDump.Utf16

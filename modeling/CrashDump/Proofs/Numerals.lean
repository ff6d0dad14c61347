import CrashDump.Bytes.LittleEndian
import CrashDump.Text.Hex
import CrashDump.Text.Numeral
import Mathlib

/-!
# Numerals read back

Digits stand for a number, and pairs of hexadecimal digits stand for bytes. What is written in as
few digits as will do, in a fixed count of them or in two a byte reads back as what was written, and
so does a number after zeros or in digits of either case. What reads as a number at all is digits
of the base, with a plus before them or none.
-/
namespace CrashDump

namespace Numeral

/-- The number that digits stand for, highest first; zero if there are none. -/
def value? (base : Nat) (text : List Char) : Option Nat :=
  (text.mapM (digit? base)).map (ofDigits base)

variable {base bound m n : Nat} {text : List Char} {c : Char}

@[simp] theorem value?_nil : value? base [] = some 0 := rfl

/-- A digit at the end of others. -/
theorem value?_concat (htext : value? base text = some m) (hc : digit? base c = some n) :
    value? base (text ++ [c]) = some (m * base + n) := by
  obtain ⟨digits, hdigits, rfl⟩ := Option.map_eq_some_iff.1 htext
  simp [value?, hdigits, hc, ofDigits]

theorem digit?_digitChar (hn : n < base) (hbase : base ≤ 16) :
    digit? base (Nat.digitChar n) = some n := by
  have hall : ∀ n < 16, digit? 16 (Nat.digitChar n) = some n := by decide
  obtain ⟨hvalue, _⟩ := Option.filter_eq_some_iff.1 (hall n (by omega))
  exact Option.filter_eq_some_iff.2 ⟨hvalue, decide_eq_true hn⟩

theorem value?_toDigits (hone : 1 < base) (hbase : base ≤ 16) (n : Nat) :
    value? base (Nat.toDigits base n) = some n := by
  induction n using Nat.strongRecOn with
  | ind n ih =>
    rw [Nat.toDigits_eq_if hone]
    split
    · next hlt =>
      have hdigit := value?_concat value?_nil (digit?_digitChar hlt hbase)
      rwa [Nat.zero_mul, Nat.zero_add] at hdigit
    · next hge =>
      have hrest := ih (n / base) (Nat.div_lt_self (by omega) hone)
      have hlast := digit?_digitChar (Nat.mod_lt n (Nat.zero_lt_of_lt hone)) hbase
      rw [value?_concat hrest hlast, Nat.div_add_mod']

theorem value?_cons (c : Char) (text : List Char) : value? base (c :: text) =
    (digit? base c).bind fun d =>
      (text.mapM (digit? base)).map fun ds => ofDigits base (d :: ds) := by
  rw [value?, List.mapM_cons]
  cases digit? base c with
  | none => rfl
  | some d => cases text.mapM (digit? base) <;> rfl

/-- Zeros before a number do not change it. -/
theorem value?_zeros (hbase : 0 < base) (hsmall : base ≤ 16) (zeros : Nat) (text : List Char) :
    value? base (List.replicate zeros '0' ++ text) = value? base text := by
  have hzero : digit? base '0' = some 0 := digit?_digitChar hbase hsmall
  induction zeros with
  | zero => rfl
  | succ zeros ih =>
    rw [List.replicate_succ, List.cons_append, value?_cons, hzero, ← ih]
    simp [value?, ofDigits]

/-- Text of digits that stands for a number is read as that number, if there is a digit at all. -/
theorem unsigned?_of_value? (hne : text ≠ []) (h : value? base text = some n) (hn : n < bound) :
    unsigned? base bound text = some n := by
  have hsign : ∀ rest, text ≠ '+' :: rest := by
    rintro rest rfl
    rw [value?_cons] at h
    have hplus : digit? base '+' = none := rfl
    simp [hplus] at h
  have hnatural : natural? base text = some n := by
    rw [natural?, if_neg (by simpa using hne)]
    exact h
  unfold unsigned?
  split
  · next rest => exact absurd rfl (hsign rest)
  · simp [hnatural, hn]

theorem lt_of_unsigned? (h : unsigned? base bound text = some n) : n < bound := by
  obtain ⟨_, hlt⟩ := Option.filter_eq_some_iff.1 h
  exact of_decide_eq_true hlt

end Numeral

namespace Hex

open Numeral

def lowerDigits : List Char := "0123456789abcdef".toList

def upperDigits : List Char := "0123456789ABCDEF".toList

/-- The bytes that pairs of digits stand for. -/
def bytes? : List Char → Option (List UInt8)
  | [] => some []
  | [_] => none
  | high :: low :: rest => do
    let byte ← value? 16 [high, low]
    return UInt8.ofNat byte :: (← bytes? rest)

variable {text : List Char} {c : Char}

theorem digitChar_mem (n : Nat) : Nat.digitChar (n % 16) ∈ lowerDigits := by
  have hall : ∀ n < 16, Nat.digitChar n ∈ lowerDigits := by decide
  exact hall (n % 16) (Nat.mod_lt n (by decide))

theorem mem_lowerDigits_of_mem_digits {width n : Nat} (h : c ∈ digits width n) :
    c ∈ lowerDigits := by
  induction width generalizing n with
  | zero => simp [digits] at h
  | succ width ih =>
    rcases List.mem_append.1 h with h | h
    · exact ih h
    · rw [List.mem_singleton.1 h]
      exact digitChar_mem n

theorem mem_lowerDigits_of_mem_byteDigits {bytes : List UInt8} (h : c ∈ byteDigits bytes) :
    c ∈ lowerDigits := by
  obtain ⟨b, _, hc⟩ := List.mem_flatMap.1 h
  exact mem_lowerDigits_of_mem_digits hc

theorem mem_lowerDigits_of_mem_toDigits {n : Nat} (h : c ∈ Nat.toDigits 16 n) :
    c ∈ lowerDigits := by
  induction n using Nat.strongRecOn with
  | ind n ih =>
    rw [Nat.toDigits_eq_if (by decide)] at h
    split at h
    · next hlt =>
      rw [List.mem_singleton.1 h, ← Nat.mod_eq_of_lt hlt]
      exact digitChar_mem n
    · next hge =>
      rcases List.mem_append.1 h with h | h
      · exact ih (n / 16) (Nat.div_lt_self (by omega) (by decide)) h
      · rw [List.mem_singleton.1 h]
        exact digitChar_mem n

theorem map_toUpper_lowerDigits : lowerDigits.map Char.toUpper = upperDigits := by decide

theorem map_digit?_upperDigits :
    upperDigits.map (digit? 16) = lowerDigits.map (digit? 16) := by decide

theorem toUpper_mem (h : c ∈ lowerDigits) : c.toUpper ∈ upperDigits :=
  map_toUpper_lowerDigits ▸ List.mem_map_of_mem h

theorem digit?_toUpper (h : c ∈ lowerDigits) : digit? 16 c.toUpper = digit? 16 c := by
  have hmap := map_digit?_upperDigits
  rw [← map_toUpper_lowerDigits, List.map_map] at hmap
  exact List.map_inj_left.1 hmap c h

/-- Digits in upper case stand for the same number. -/
theorem value?_toUpper (h : ∀ c ∈ text, c ∈ lowerDigits) :
    value? 16 (text.map Char.toUpper) = value? 16 text := by
  have hmap : (text.map Char.toUpper).mapM (digit? 16) = text.mapM (digit? 16) := by
    induction text with
    | nil => rfl
    | cons c text ih =>
      rw [List.map_cons, List.mapM_cons, List.mapM_cons, digit?_toUpper (h c List.mem_cons_self),
        ih fun d hd => h d (List.mem_cons_of_mem c hd)]
  rw [value?, value?, hmap]

theorem value?_digits (width n : Nat) : value? 16 (digits width n) = some (n % 16 ^ width) := by
  induction width generalizing n with
  | zero => rw [digits, value?_nil, Nat.pow_zero, Nat.mod_one]
  | succ width ih =>
    have hlast := digit?_digitChar (Nat.mod_lt n (show 0 < 16 by decide)) (Nat.le_refl 16)
    rw [digits, value?_concat (ih (n / 16)) hlast, Nat.pow_succ', Nat.mod_mul, Nat.add_comm,
      Nat.mul_comm]

/-- Two digits a byte, highest byte first, are the number that the bytes are lowest first. -/
theorem value?_byteDigits_reverse (bytes : List UInt8) :
    value? 16 (byteDigits bytes.reverse) = some (LittleEndian.value bytes) := by
  induction bytes with
  | nil => rfl
  | cons b bytes ih =>
    have hb := b.toNat_lt
    have hpair : byteDigits (b :: bytes).reverse =
        byteDigits bytes.reverse ++ [Nat.digitChar (b.toNat / 16 % 16)] ++
          [Nat.digitChar (b.toNat % 16)] := by
      simp [byteDigits, digits]
    have hlt : ∀ n, n % 16 < 16 := fun n => Nat.mod_lt n (by decide)
    have hhigh := value?_concat ih (digit?_digitChar (hlt (b.toNat / 16)) (Nat.le_refl 16))
    rw [hpair, value?_concat hhigh (digit?_digitChar (hlt b.toNat) (Nat.le_refl 16)),
      LittleEndian.value_cons]
    exact congrArg some (by omega)

/-- Two digits a byte in upper case read back as the bytes. -/
theorem bytes?_toUpper (bytes : List UInt8) :
    bytes? ((byteDigits bytes).map Char.toUpper) = some bytes := by
  induction bytes with
  | nil => rfl
  | cons b bytes ih =>
    have hb := b.toNat_lt
    have hvalue : value? 16 ((digits 2 b.toNat).map Char.toUpper) = some b.toNat := by
      rw [value?_toUpper fun c hc => mem_lowerDigits_of_mem_digits hc, value?_digits]
      exact congrArg some (Nat.mod_eq_of_lt hb)
    change (value? 16 ((digits 2 b.toNat).map Char.toUpper) >>= fun byte =>
      bytes? ((byteDigits bytes).map Char.toUpper) >>= fun rest =>
        pure (UInt8.ofNat byte :: rest)) = _
    rw [hvalue, ih]
    simp

/-- A number as the digits of it in either case, after any zeros. -/
def Spells (text : List Char) (n : Nat) : Prop :=
  ∃ zeros, List.Forall₂ (fun c d => c = d ∨ c = Char.toUpper d) text
    (List.replicate zeros '0' ++ Nat.toDigits 16 n)

variable {n : Nat}

theorem mem_lowerDigits_of_mem_padded {zeros : Nat}
    (h : c ∈ List.replicate zeros '0' ++ Nat.toDigits 16 n) : c ∈ lowerDigits := by
  rcases List.mem_append.1 h with h | h
  · rw [List.eq_of_mem_replicate h]
    decide
  · exact mem_lowerDigits_of_mem_toDigits h

section Cases

variable {digits : List Char} (h : List.Forall₂ (fun c d => c = d ∨ c = Char.toUpper d) text digits)
  (hdigits : ∀ d ∈ digits, d ∈ lowerDigits)
include h hdigits

theorem mapM_digit?_eq : text.mapM (digit? 16) = digits.mapM (digit? 16) := by
  induction h with
  | nil => rfl
  | cons hcase _ ih =>
    obtain ⟨hd, hrest⟩ := List.forall_mem_cons.1 hdigits
    rw [List.mapM_cons, List.mapM_cons, ih hrest]
    rcases hcase with rfl | rfl
    · rfl
    · rw [digit?_toUpper hd]

theorem mem_digits_of_cases {c : Char} (hc : c ∈ text) : c ∈ lowerDigits ∨ c ∈ upperDigits := by
  induction h with
  | nil => simp at hc
  | cons hcase _ ih =>
    obtain ⟨hd, hrest⟩ := List.forall_mem_cons.1 hdigits
    rcases List.mem_cons.1 hc with rfl | hc
    · rcases hcase with rfl | rfl
      · exact .inl hd
      · exact .inr (toUpper_mem hd)
    · exact ih hrest hc

end Cases

namespace Spells

variable (h : Spells text n)
include h

theorem value?_eq : value? 16 text = some n := by
  obtain ⟨zeros, hdigits⟩ := h
  rw [value?, mapM_digit?_eq hdigits fun _ => mem_lowerDigits_of_mem_padded]
  exact (value?_zeros (by decide) (by decide) zeros _).trans
    (value?_toDigits (by decide) (by decide) n)

theorem ne_nil : text ≠ [] := by
  rintro rfl
  obtain ⟨zeros, hdigits⟩ := h
  have hempty := List.forall₂_nil_left_iff.1 hdigits
  exact Nat.toDigits_ne_nil (List.append_eq_nil_iff.1 hempty).2

theorem not_mem {c : Char} (hlower : c ∉ lowerDigits) (hupper : c ∉ upperDigits) : c ∉ text := by
  obtain ⟨zeros, hdigits⟩ := h
  intro hc
  rcases mem_digits_of_cases hdigits (fun _ => mem_lowerDigits_of_mem_padded) hc with hc | hc
  · exact hlower hc
  · exact hupper hc

theorem unsigned?_eq {bound : Nat} (hn : n < bound) : unsigned? 16 bound text = some n :=
  unsigned?_of_value? h.ne_nil h.value?_eq hn

end Spells

end Hex

namespace Numeral

variable {base bound d m n : Nat} {text : List Char} {c : Char}

/-- A digit and its value, which is its place in the alphabet of either case. -/
structure Digit (base : Nat) (c : Char) (d : Nat) : Prop where
  small : d < base
  place : Hex.lowerDigits[d]? = some c ∨ Hex.upperDigits[d]? = some c

/-- A number in digits, highest first. -/
structure Writes (base : Nat) (text : List Char) (n : Nat) : Prop where
  nonempty : text ≠ []
  value : ∃ digits, List.Forall₂ (Digit base) text digits ∧ n = Nat.ofDigits base digits.reverse

/-- A number in digits, with a plus before them or none. -/
inductive Unsigned (base : Nat) : List Char → Nat → Prop
  | plain {text : List Char} {n : Nat} (h : Writes base text n) : Unsigned base text n
  | plus {text : List Char} {n : Nat} (h : Writes base text n) : Unsigned base ('+' :: text) n

theorem digit?_eq_some_iff_of_le (hbase : base ≤ 16) :
    digit? base c = some d ↔ digit? 16 c = some d ∧ d < base := by
  simp only [digit?, Option.filter_eq_some_iff, decide_eq_true_eq, and_assoc]
  refine and_congr_right fun _ => ⟨fun h => ⟨by omega, h⟩, fun h => h.2⟩

theorem le_of_digit? (h : digit? base c = some d) : c ≤ 'z' := by
  obtain ⟨h, _⟩ := Option.filter_eq_some_iff.1 h
  split at h
  · next hc => exact Char.le_trans hc.2 (by decide)
  · split at h
    · next hc => exact hc.2
    · split at h
      · next hc => exact Char.le_trans hc.2 (by decide)
      · simp at h

theorem digit?_sixteen_iff : digit? 16 c = some d ↔
    Hex.lowerDigits[d]? = some c ∨ Hex.upperDigits[d]? = some c := by
  constructor
  · intro h
    have hall : ∀ n ≤ 'z'.toNat, ∀ d ∈ digit? 16 (Char.ofNat n),
        Hex.lowerDigits[d]? = some (Char.ofNat n) ∨ Hex.upperDigits[d]? = some (Char.ofNat n) := by
      decide +kernel
    have hc := hall c.toNat (le_of_digit? h) d
    rw [Char.ofNat_toNat] at hc
    exact hc h
  · have hlower : Hex.lowerDigits.map (digit? 16) = (List.range 16).map some := by decide
    have hupper := Hex.map_digit?_upperDigits.trans hlower
    have hplace : ∀ {alphabet : List Char}, alphabet.map (digit? 16) = (List.range 16).map some →
        alphabet[d]? = some c → digit? 16 c = some d := by
      intro alphabet hmap hc
      have hvalue := congrArg (·[d]?) hmap
      have hd : d < 16 := by
        have hlength : alphabet.length = 16 := by simpa using congrArg List.length hmap
        exact hlength ▸ (List.getElem?_eq_some_iff.1 hc).1
      simpa [hc, hd] using hvalue
    exact fun h => h.elim (hplace hlower) (hplace hupper)

theorem digit?_eq_some_iff (hbase : base ≤ 16) : digit? base c = some d ↔ Digit base c d := by
  rw [digit?_eq_some_iff_of_le hbase, digit?_sixteen_iff, and_comm]
  exact ⟨fun h => ⟨h.1, h.2⟩, fun h => ⟨h.1, h.2⟩⟩

theorem Digit.mem (h : Digit base c d) : c ∈ Hex.lowerDigits ++ Hex.upperDigits :=
  List.mem_append.2 (h.place.imp List.mem_of_getElem? List.mem_of_getElem?)

theorem mapM_digit?_iff (hbase : base ≤ 16) {digits : List Nat} :
    text.mapM (digit? base) = some digits ↔ List.Forall₂ (Digit base) text digits := by
  induction text generalizing digits with
  | nil => simp [eq_comm]
  | cons c text ih =>
    rw [List.mapM_cons, List.forall₂_cons_left_iff]
    constructor
    · intro h
      obtain ⟨d, hd, h⟩ := Option.bind_eq_some_iff.1 h
      obtain ⟨rest, hrest, h⟩ := Option.bind_eq_some_iff.1 h
      obtain rfl := Option.some.inj h
      exact ⟨d, rest, (digit?_eq_some_iff hbase).1 hd, ih.1 hrest, rfl⟩
    · rintro ⟨d, rest, hd, hrest, rfl⟩
      rw [(digit?_eq_some_iff hbase).2 hd, ih.2 hrest]
      rfl

theorem ofDigits_eq (base : Nat) (digits : List Nat) :
    ofDigits base digits = Nat.ofDigits base digits.reverse := by
  rw [Nat.ofDigits_eq_foldr, List.foldr_reverse, ofDigits]
  congr 1
  funext n d
  rw [Nat.cast_id, Nat.add_comm, Nat.mul_comm]

theorem natural?_eq_some_iff (hbase : base ≤ 16) :
    natural? base text = some n ↔ Writes base text n := by
  rw [natural?]
  constructor
  · intro h
    split at h
    · simp at h
    · next hne =>
      obtain ⟨digits, hdigits, rfl⟩ := Option.map_eq_some_iff.1 h
      exact ⟨by simpa using hne, digits, (mapM_digit?_iff hbase).1 hdigits, ofDigits_eq _ _⟩
  · rintro ⟨hne, digits, hdigits, rfl⟩
    rw [if_neg (by simpa using hne), (mapM_digit?_iff hbase).2 hdigits, ← ofDigits_eq]
    rfl

namespace Writes

theorem of_value? (hbase : base ≤ 16) (hne : text ≠ []) (h : value? base text = some n) :
    Writes base text n := by
  rw [← natural?_eq_some_iff hbase, natural?, if_neg (by simpa using hne)]
  exact h

theorem mem (h : Writes base text n) (hc : c ∈ text) :
    c ∈ Hex.lowerDigits ++ Hex.upperDigits := by
  obtain ⟨digits, hdigits, _⟩ := h.value
  obtain ⟨i, hi, rfl⟩ := List.getElem_of_mem hc
  exact (hdigits.get hi (hdigits.length_eq ▸ hi)).mem

theorem head?_ne_plus (h : Writes base text n) : text.head? ≠ some '+' := by
  intro hhead
  exact absurd (h.mem (List.mem_of_mem_head? hhead)) (by decide)

end Writes

theorem unsigned?_eq_some_iff (hbase : base ≤ 16) :
    unsigned? base bound text = some n ↔ Unsigned base text n ∧ n < bound := by
  unfold unsigned?
  split
  · next digits =>
    rw [Option.filter_eq_some_iff, natural?_eq_some_iff hbase, decide_eq_true_eq]
    refine and_congr_left fun _ => ⟨.plus, fun h => ?_⟩
    cases h with
    | plain h => exact absurd rfl h.head?_ne_plus
    | plus h => exact h
  · next hplus =>
    rw [Option.filter_eq_some_iff, natural?_eq_some_iff hbase, decide_eq_true_eq]
    refine and_congr_left fun _ => ⟨.plain, fun h => ?_⟩
    cases h with
    | plain h => exact h
    | plus h => exact absurd rfl (hplus _)

/-- What a number is written in takes one byte each. -/
theorem Unsigned.utf8Size_eq_one (h : Unsigned base text n) (hc : c ∈ text) : c.utf8Size = 1 := by
  have hall : ('+' :: (Hex.lowerDigits ++ Hex.upperDigits)).all fun c => c.val ≤ 127 := by decide
  refine Char.utf8Size_eq_one_iff.2 (of_decide_eq_true (List.all_eq_true.1 hall c ?_))
  cases h with
  | plain h => exact List.mem_cons_of_mem _ (h.mem hc)
  | plus h =>
    rcases List.mem_cons.1 hc with rfl | hc
    · exact List.mem_cons_self
    · exact List.mem_cons_of_mem _ (h.mem hc)

theorem Unsigned.unique (hbase : base ≤ 16) (hm : Unsigned base text m)
    (hn : Unsigned base text n) : m = n := by
  have hmn : ∀ {k}, Unsigned base text k → k ≤ max m n →
      unsigned? base (max m n + 1) text = some k :=
    fun hk hle => (unsigned?_eq_some_iff hbase).2 ⟨hk, Nat.lt_succ_of_le hle⟩
  exact Option.some.inj ((hmn hm (Nat.le_max_left m n)).symm.trans (hmn hn (Nat.le_max_right m n)))

end Numeral

end CrashDump

import CrashDump.Bytes.Buffer
import CrashDump.Text.Unicode
import Mathlib

/-!
# Text in UTF-8

Decoding undoes encoding for every text. The first byte of a character says how many follow it and
what the next one may be; the shortest form of a character keeps to that. A text can be cut at a
byte of its encoding exactly if a prefix of it ends there.
-/
namespace CrashDump.Utf8

variable {n : Nat}

theorem toNat_ofNat_eq (h : n < 256) : (UInt8.ofNat n).toNat = n := by
  rw [UInt8.toNat_ofNat', Nat.mod_eq_of_lt h]

/-- What a first byte makes pending: how many bytes are to come, the bits so far, and bounds which
the next byte is in. -/
def FirstByte (left bits next : Nat) (b : UInt8) : Prop :=
  ∃ low high, start b = ([], some ⟨left, low, high, bits⟩) ∧ low ≤ next ∧ next ≤ high

theorem firstByte_two (hlow : 0x80 ≤ n) (hhigh : n < 0x800) :
    FirstByte 1 (n / 64) (n % 64 + 0x80) (UInt8.ofNat (n / 64 % 32 + 0xc0)) := by
  have hb := toNat_ofNat_eq (show n / 64 % 32 + 0xc0 < 256 by omega)
  have hbits : n / 64 % 32 + 0xc0 - 0xc0 = n / 64 := by omega
  refine ⟨0x80, 0xbf, ?_, by omega, by omega⟩
  simp only [start, hb, hbits]
  rw [if_neg (by omega), if_neg (by omega), if_pos (by omega)]

/-- Two first bytes ask more of the second: one is for characters that a shorter form would do for,
the other for halves of a pair. -/
theorem firstByte_three (hlow : 0x800 ≤ n) (hhigh : n < 0x10000)
    (hvalid : n < 0xd800 ∨ 0xe000 ≤ n) :
    FirstByte 2 (n / 4096) (n / 64 % 64 + 0x80) (UInt8.ofNat (n / 4096 % 16 + 0xe0)) := by
  have hb := toNat_ofNat_eq (show n / 4096 % 16 + 0xe0 < 256 by omega)
  have hbits : n / 4096 % 16 + 0xe0 - 0xe0 = n / 4096 := by omega
  simp only [FirstByte, start, hb, hbits]
  rw [if_neg (by omega), if_neg (by omega), if_neg (by omega)]
  split
  · exact ⟨0xa0, 0xbf, by simp; omega, by omega, by omega⟩
  split
  · exact ⟨0x80, 0x9f, by simp; omega, by omega, by omega⟩
  · rw [if_pos (by omega)]
    exact ⟨0x80, 0xbf, rfl, by omega, by omega⟩

theorem firstByte_four (hlow : 0x10000 ≤ n) (hhigh : n < 0x110000) :
    FirstByte 3 (n / 262144) (n / 4096 % 64 + 0x80) (UInt8.ofNat (n / 262144 % 8 + 0xf0)) := by
  have hb := toNat_ofNat_eq (show n / 262144 % 8 + 0xf0 < 256 by omega)
  have hbits : n / 262144 % 8 + 0xf0 - 0xf0 = n / 262144 := by omega
  simp only [FirstByte, start, hb, hbits]
  rw [if_neg (by omega), if_neg (by omega), if_neg (by omega), if_neg (by omega),
    if_neg (by omega), if_neg (by omega)]
  split
  · exact ⟨0x90, 0xbf, by simp; omega, by omega, by omega⟩
  split
  · exact ⟨0x80, 0xbf, rfl, by omega, by omega⟩
  · rw [if_pos (by omega)]
    exact ⟨0x80, 0x8f, by simp; omega, by omega, by omega⟩

section Next

variable {p : Pending} {b : UInt8} (hb : b.toNat = n % 64 + 0x80)
  (hbounds : p.low ≤ n % 64 + 0x80 ∧ n % 64 + 0x80 ≤ p.high)
include hb hbounds

theorem decodeFrom_next (hleft : 1 < p.left) (rest : List UInt8) :
    decodeFrom (some p) (b :: rest) =
      decodeFrom (some ⟨p.left - 1, 0x80, 0xbf, p.bits * 64 + n % 64⟩) rest := by
  simp [decodeFrom, step, hb, hbounds, Nat.not_le.2 hleft]

theorem decodeFrom_last (hleft : p.left = 1) (rest : List UInt8) :
    decodeFrom (some p) (b :: rest) =
      Char.ofNat (p.bits * 64 + n % 64) :: decodeFrom none rest := by
  simp [decodeFrom, step, hb, hbounds, hleft]

end Next

theorem decodeFrom_first {b : UInt8} {p : Pending} (h : start b = ([], some p))
    (rest : List UInt8) : decodeFrom none (b :: rest) = decodeFrom (some p) rest := by
  simp [decodeFrom, step, h]

theorem decodeFrom_one (h : n < 0x80) (rest : List UInt8) :
    decodeFrom none (UInt8.ofNat n :: rest) = Char.ofNat n :: decodeFrom none rest := by
  have hb := toNat_ofNat_eq (show n < 256 by omega)
  simp [decodeFrom, step, start, hb, h]

theorem toNat_next (n : Nat) : (UInt8.ofNat (n % 64 + 0x80)).toNat = n % 64 + 0x80 :=
  toNat_ofNat_eq (by omega)

/-- The bounds of a byte that is neither the first nor the second. -/
theorem next_bounds (n : Nat) : 0x80 ≤ n % 64 + 0x80 ∧ n % 64 + 0x80 ≤ 0xbf := by omega

theorem decodeFrom_two (hlow : 0x80 ≤ n) (hhigh : n < 0x800) (rest : List UInt8) :
    decodeFrom none (UInt8.ofNat (n / 64 % 32 + 0xc0) :: UInt8.ofNat (n % 64 + 0x80) :: rest) =
      Char.ofNat n :: decodeFrom none rest := by
  obtain ⟨low, high, hfirst, hsecond⟩ := firstByte_two hlow hhigh
  rw [decodeFrom_first hfirst, decodeFrom_last (toNat_next n) hsecond rfl, Nat.div_add_mod']

theorem decodeFrom_three (hlow : 0x800 ≤ n) (hhigh : n < 0x10000)
    (hvalid : n < 0xd800 ∨ 0xe000 ≤ n) (rest : List UInt8) :
    decodeFrom none (UInt8.ofNat (n / 4096 % 16 + 0xe0) :: UInt8.ofNat (n / 64 % 64 + 0x80) ::
      UInt8.ofNat (n % 64 + 0x80) :: rest) = Char.ofNat n :: decodeFrom none rest := by
  obtain ⟨low, high, hfirst, hsecond⟩ := firstByte_three hlow hhigh hvalid
  have hbits : (n / 4096 * 64 + n / 64 % 64) * 64 + n % 64 = n := by omega
  rw [decodeFrom_first hfirst, decodeFrom_next (toNat_next _) hsecond (Nat.lt_succ_self 1),
    decodeFrom_last (toNat_next n) (next_bounds n) rfl, hbits]

theorem decodeFrom_four (hlow : 0x10000 ≤ n) (hhigh : n < 0x110000) (rest : List UInt8) :
    decodeFrom none (UInt8.ofNat (n / 262144 % 8 + 0xf0) :: UInt8.ofNat (n / 4096 % 64 + 0x80) ::
      UInt8.ofNat (n / 64 % 64 + 0x80) :: UInt8.ofNat (n % 64 + 0x80) :: rest) =
      Char.ofNat n :: decodeFrom none rest := by
  obtain ⟨low, high, hfirst, hsecond⟩ := firstByte_four hlow hhigh
  have hbits : ((n / 262144 * 64 + n / 4096 % 64) * 64 + n / 64 % 64) * 64 + n % 64 = n := by
    omega
  have htwo : 1 < 3 - 1 := by decide
  rw [decodeFrom_first hfirst, decodeFrom_next (toNat_next _) hsecond (by simp),
    decodeFrom_next (toNat_next _) (next_bounds _) htwo,
    decodeFrom_last (toNat_next n) (next_bounds n) rfl, hbits]

theorem decodeFrom_encodeChar (c : Char) (rest : List UInt8) :
    decodeFrom none (String.utf8EncodeChar c ++ rest) = c :: decodeFrom none rest := by
  have hvalid : c.val.toNat < 0xd800 ∨ 0xe000 ≤ c.val.toNat ∧ c.val.toNat < 0x110000 :=
    c.valid.imp_right fun h => ⟨h.1, h.2⟩
  have hc : Char.ofNat c.val.toNat = c := Char.ofNat_toNat c
  unfold String.utf8EncodeChar
  conv => rhs; rw [← hc]
  dsimp only
  split
  · exact decodeFrom_one (by omega) rest
  split
  · exact decodeFrom_two (by omega) (by omega) rest
  split
  · exact decodeFrom_three (by omega) (by omega) (by omega) rest
  · exact decodeFrom_four (by omega) (by omega) rest

theorem decodeFrom_encode (text : List Char) :
    decodeFrom none (text.flatMap String.utf8EncodeChar) = text := by
  induction text with
  | nil => rfl
  | cons c text ih => rw [List.flatMap_cons, decodeFrom_encodeChar, ih]

theorem bytes_toUTF8 (text : String) :
    Buffer.bytes text.toUTF8 = text.toList.flatMap String.utf8EncodeChar := by
  rw [String.toUTF8_eq_toByteArray, ← String.utf8Encode_toList]
  simp [Buffer.bytes, List.utf8Encode]

theorem decode_toUTF8 (text : String) : decode (Buffer.bytes text.toUTF8) = text := by
  rw [decode, bytes_toUTF8, decodeFrom_encode, String.ofList_toList]

theorem zero_ne_ofNat (hpos : 0 < n) (h : n < 256) : 0 ≠ UInt8.ofNat n := by
  intro hzero
  have hn := congrArg UInt8.toNat hzero
  rw [toNat_ofNat_eq h] at hn
  exact absurd hn (Nat.ne_of_lt hpos)

/-- Only the character NUL has a zero byte. -/
theorem zero_not_mem_encodeChar {c : Char} (h : c ≠ '\x00') : 0 ∉ String.utf8EncodeChar c := by
  have hpos : 0 < c.val.toNat := Nat.pos_of_ne_zero fun hzero => h (Char.toNat_inj.1 hzero)
  have hone : c.val.toNat ≤ 127 → 0 ≠ UInt8.ofNat c.val.toNat := fun hle =>
    zero_ne_ofNat hpos (by omega)
  have hnext : ∀ n, 0 ≠ UInt8.ofNat (n % 64 + 128) := fun n => zero_ne_ofNat (by omega) (by omega)
  have htwo : ∀ n, 0 ≠ UInt8.ofNat (n % 32 + 192) := fun n => zero_ne_ofNat (by omega) (by omega)
  have hthree : ∀ n, 0 ≠ UInt8.ofNat (n % 16 + 224) := fun n =>
    zero_ne_ofNat (by omega) (by omega)
  have hfour : ∀ n, 0 ≠ UInt8.ofNat (n % 8 + 240) := fun n => zero_ne_ofNat (by omega) (by omega)
  unfold String.utf8EncodeChar
  dsimp only
  split
  · next hle => simpa only [List.mem_singleton] using hone hle
  split
  · simp only [List.mem_cons, List.not_mem_nil, hnext, htwo, or_self, not_false_eq_true]
  split
  · simp only [List.mem_cons, List.not_mem_nil, hnext, hthree, or_self, not_false_eq_true]
  · simp only [List.mem_cons, List.not_mem_nil, hnext, hfour, or_self, not_false_eq_true]

theorem zero_not_mem_toUTF8 {text : String} (h : '\x00' ∉ text.toList) :
    0 ∉ Buffer.bytes text.toUTF8 := by
  rw [bytes_toUTF8, List.mem_flatMap]
  rintro ⟨c, hc, hzero⟩
  refine zero_not_mem_encodeChar ?_ hzero
  rintro rfl
  exact h hc

section Cuts

variable {text front back : List Char} {count : Nat}

@[simp] theorem size_nil : size [] = 0 := rfl

@[simp] theorem size_cons (c : Char) (text : List Char) :
    size (c :: text) = c.utf8Size + size text := rfl

@[simp] theorem size_append (front back : List Char) :
    size (front ++ back) = size front + size back := by
  induction front with
  | nil => rw [size_nil, List.nil_append, Nat.zero_add]
  | cons c front ih => rw [List.cons_append, size_cons, size_cons, ih, Nat.add_assoc]

theorem size_toUTF8 (text : String) : size text.toList = (Buffer.bytes text.toUTF8).length := by
  rw [bytes_toUTF8]
  induction text.toList with
  | nil => rfl
  | cons c rest ih =>
    rw [size_cons, List.flatMap_cons, List.length_append, String.length_utf8EncodeChar, ih]

theorem length_le_size (text : List Char) : text.length ≤ size text := by
  induction text with
  | nil => exact Nat.le_refl 0
  | cons c text ih =>
    have hc := c.utf8Size_pos
    rw [List.length_cons, size_cons]
    omega

theorem size_eq_length (h : ∀ c ∈ text, c.utf8Size = 1) : size text = text.length := by
  induction text with
  | nil => rfl
  | cons c text ih =>
    obtain ⟨hc, htext⟩ := List.forall_mem_cons.1 h
    rw [size_cons, hc, ih htext, List.length_cons, Nat.add_comm]

theorem size_mono (h : front <+: text) : size front ≤ size text := by
  obtain ⟨back, rfl⟩ := h
  rw [size_append]
  omega

/-- Of two prefixes of a text the one in fewer bytes is a prefix of the other. -/
theorem prefix_of_size_lt {short : List Char} (hshort : short <+: text) (hfront : front <+: text)
    (h : size short < size front) : short <+: front := by
  rcases List.prefix_or_prefix_of_prefix hshort hfront with hle | hge
  · exact hle
  · exact absurd (size_mono hge) (Nat.not_le.2 h)

/-- A text can be cut at the bytes that end one of its prefixes. -/
theorem splitAt?_eq_some_iff : splitAt? count text = some (front, back) ↔
    text = front ++ back ∧ size front = count := by
  induction count, text using splitAt?.induct generalizing front with
  | case1 text =>
    have hempty : size front = 0 ↔ front = [] :=
      ⟨fun h => List.length_eq_zero_iff.1 (by have := length_le_size front; omega), by simp_all⟩
    rw [splitAt?, hempty]
    constructor
    · rintro ⟨⟩
      exact ⟨rfl, rfl⟩
    · rintro ⟨rfl, rfl⟩
      rfl
  | case2 count =>
    simp only [splitAt?, reduceCtorEq, false_iff]
    rintro ⟨hnil, hsize⟩
    obtain ⟨rfl, rfl⟩ := List.append_eq_nil_iff.1 hnil.symm
    simp at hsize
  | case3 count c rest hfits ih =>
    rw [splitAt?, if_pos hfits, Option.map_eq_some_iff]
    constructor
    · rintro ⟨⟨front, back⟩, hrest, ⟨⟩⟩
      obtain ⟨rfl, hsize⟩ := ih.1 hrest
      exact ⟨rfl, by rw [size_cons, hsize]; omega⟩
    · rintro ⟨htext, hsize⟩
      cases front with
      | nil => simp at hsize
      | cons d front =>
        obtain ⟨rfl, rfl⟩ := List.cons.inj htext
        rw [size_cons] at hsize
        exact ⟨(front, back), ih.2 ⟨rfl, by omega⟩, rfl⟩
  | case4 count c rest hfits =>
    rw [splitAt?, if_neg hfits]
    simp only [reduceCtorEq, false_iff]
    rintro ⟨htext, hsize⟩
    cases front with
    | nil => simp at hsize
    | cons d front =>
      obtain ⟨rfl, _⟩ := List.cons.inj htext
      rw [size_cons] at hsize
      omega

theorem splitAt?_append (front back : List Char) :
    splitAt? (size front) (front ++ back) = some (front, back) :=
  splitAt?_eq_some_iff.2 ⟨rfl, rfl⟩

theorem splitAt?_eq_none_iff : splitAt? count text = none ↔
    ∀ front, front <+: text → size front ≠ count := by
  rw [Option.eq_none_iff_forall_not_mem]
  constructor
  · rintro h front ⟨back, rfl⟩ rfl
    exact h (front, back) (splitAt?_append front back)
  · rintro h ⟨front, back⟩ hsplit
    obtain ⟨rfl, hsize⟩ := splitAt?_eq_some_iff.1 hsplit
    exact h front (List.prefix_append front back) hsize

theorem exists_of_size_eq_one (h : size text = 1) : ∃ c, text = [c] ∧ c.utf8Size = 1 := by
  have hlength := length_le_size text
  rw [h] at hlength
  match text with
  | [] => simp at h
  | [c] => exact ⟨c, rfl, by simpa using h⟩
  | _ :: _ :: _ => simp at hlength

/-- The last byte can be cut off exactly if it is a character. -/
theorem splitAt?_pred_eq_some_iff (hne : text ≠ []) :
    splitAt? (size text - 1) text = some (front, back) ↔
      ∃ c, back = [c] ∧ text = front ++ [c] ∧ c.utf8Size = 1 := by
  have hpos : 0 < size text := (List.length_pos_iff.2 hne).trans_le (length_le_size text)
  rw [splitAt?_eq_some_iff]
  constructor
  · rintro ⟨rfl, hsize⟩
    rw [size_append] at hsize hpos
    have hback : size back = 1 := by omega
    obtain ⟨c, rfl, hc⟩ := exists_of_size_eq_one hback
    exact ⟨c, rfl, rfl, hc⟩
  · rintro ⟨c, rfl, rfl, hc⟩
    refine ⟨rfl, ?_⟩
    rw [size_append, size_cons, size_nil, hc, Nat.add_zero, Nat.add_sub_cancel]

end Cuts

end CrashDump.Utf8

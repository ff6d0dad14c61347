import CrashDump.Proofs.Numerals
import CrashDump.Proofs.RegisterReads

/-!
# Views of registers

A slice inside another one shows some of its bits, so the names for parts of a register agree with
the register. The text of a value is its number, with two digits for each byte.
-/
namespace CrashDump

namespace LittleEndian

theorem value_drop (bytes : List UInt8) (place : Nat) :
    value (bytes.drop place) = value bytes / 2 ^ (8 * place) := by
  induction place generalizing bytes with
  | zero => rw [List.drop_zero, Nat.mul_zero, Nat.pow_zero, Nat.div_one]
  | succ place ih =>
    cases bytes with
    | nil => simp
    | cons b bytes =>
      have hb := b.toNat_lt
      have htail : (b.toNat + 256 * value bytes) / 2 ^ 8 = value bytes := by omega
      rw [List.drop_succ_cons, ih, value_cons, Nat.mul_succ, Nat.pow_add', ← Nat.div_div_eq_div_mul,
        htail]

theorem value_take (bytes : List UInt8) (width : Nat) :
    value (bytes.take width) = value bytes % 2 ^ (8 * width) := by
  induction width generalizing bytes with
  | zero => rw [List.take_zero, value_nil, Nat.mul_zero, Nat.pow_zero, Nat.mod_one]
  | succ width ih =>
    cases bytes with
    | nil => simp
    | cons b bytes =>
      have hb := b.toNat_lt
      have hhead : (b.toNat + 256 * value bytes) % 2 ^ 8 = b.toNat := by omega
      have htail : (b.toNat + 256 * value bytes) / 2 ^ 8 = value bytes := by omega
      rw [List.take_succ_cons, value_cons, value_cons, ih, Nat.mul_succ, Nat.pow_add', Nat.mod_mul,
        hhead, htail]

end LittleEndian

namespace RegisterValue

variable {value : RegisterValue} {width count : Nat}

theorem low_eq_mod (value : RegisterValue) (count : Nat) :
    value.low count = LittleEndian.value value.bytes % 2 ^ (8 * count) :=
  LittleEndian.value_take value.bytes count

theorem low_of_width_le (h : value.width ≤ count) :
    value.low count = LittleEndian.value value.bytes := by
  rw [low, List.take_of_length_le h]

/-- Fewer bytes hold the lower bits of the number. -/
theorem low_mod (h : width ≤ count) : value.low count % 2 ^ (8 * width) = value.low width := by
  rw [low_eq_mod, low_eq_mod, Nat.mod_mod_of_dvd _ (Nat.pow_dvd_pow 2 (Nat.mul_le_mul_left 8 h))]

/-- The number in some of the bytes of a value. -/
theorem low_part (hvalue : value.width ≤ count) (hwidth : width ≤ count) (place : Nat) :
    low ⟨(value.bytes.drop place).take width⟩ count =
      (value.low count >>> (8 * place)) % 2 ^ (8 * width) := by
  have hpart : (RegisterValue.mk ((value.bytes.drop place).take width)).width ≤ count :=
    Nat.le_trans (List.length_take_le _ _) hwidth
  rw [low_of_width_le hpart, low_of_width_le hvalue, LittleEndian.value_take,
    LittleEndian.value_drop, Nat.shiftRight_eq_div_pow]

/-- The text of a value, digit by digit. -/
def hexDigits (value : RegisterValue) : List Char := Hex.byteDigits value.bytes.reverse

theorem toList_text (value : RegisterValue) :
    value.text.toList = '0' :: 'x' :: value.hexDigits := by
  simp [text, hexDigits, Hex.ofBytes]

theorem length_hexDigits (value : RegisterValue) : value.hexDigits.length = 2 * value.width := by
  rw [hexDigits, Hex.length_byteDigits, List.length_reverse, width]

theorem value?_digits (value : RegisterValue) :
    Numeral.value? 16 value.hexDigits = some (LittleEndian.value value.bytes) :=
  Hex.value?_byteDigits_reverse value.bytes

end RegisterValue

namespace RegisterEntry

variable {entries : List RegisterEntry} {n count : Nat}

/-- The bytes of a slice are among those of another one. -/
structure Within (inner outer : RegisterEntry) : Prop where
  start : outer.offset ≤ inner.offset
  stop : inner.offset + inner.width ≤ outer.offset + outer.width

theorem mem_numbered (h : n < count) (stem : String) (offset stride width : Nat)
    (group : RegisterClass) (primary : Bool) :
    (⟨stem ++ toString n, offset + stride * n, width, group, primary⟩ : RegisterEntry) ∈
      numbered stem count offset stride width group primary :=
  List.mem_map.2 ⟨n, List.mem_range.2 h, rfl⟩

end RegisterEntry

namespace RegisterLayout

open RegisterEntry

variable {layout : RegisterLayout}

theorem width_le : ∀ layout ∈ all, ∀ entry ∈ layout.entries, entry.width ≤ 16 := by
  decide +kernel

theorem entries_of_amd64 (h : layout ∈ all) (ha : layout.kind.architecture = .amd64) :
    Amd64.slices ⊆ layout.entries := by
  simp only [all, List.mem_cons, List.not_mem_nil, or_false] at h
  rcases h with rfl | rfl | rfl | rfl | rfl | rfl
  any_goals exact Architecture.noConfusion ha
  all_goals exact List.subset_append_left _ _

theorem entries_of_arm (h : layout ∈ all) (ha : layout.kind.architecture = .arm) :
    Arm.slices ⊆ layout.entries := by
  simp only [all, List.mem_cons, List.not_mem_nil, or_false] at h
  rcases h with rfl | rfl | rfl | rfl | rfl | rfl
  any_goals exact Architecture.noConfusion ha
  all_goals exact List.subset_append_left _ _

theorem entries_of_arm64 (h : layout ∈ all) (ha : layout.kind.architecture = .arm64) :
    ∃ cpsr fpsr fpcr vector debug,
      Arm64.slices (Arm64.wordSlices cpsr fpsr fpcr) vector debug ⊆ layout.entries := by
  simp only [all, List.mem_cons, List.not_mem_nil, or_false] at h
  rcases h with rfl | rfl | rfl | rfl | rfl | rfl
  any_goals exact Architecture.noConfusion ha
  all_goals exact ⟨_, _, _, _, _, List.subset_append_left _ _⟩

end RegisterLayout

namespace RegisterBank

open RegisterLayout RegisterEntry

variable {bank : RegisterBank} {inner outer : RegisterEntry} {n : Nat}

/-- A name reads so many bits of the register of another name, from a place on. -/
def Views (bank : RegisterBank) (part whole : String) (place bits : Nat) : Prop :=
  ∃ p w, bank.read part = .ok p ∧ bank.read whole = .ok w ∧ 8 * p.width = bits ∧
    place + bits ≤ 8 * w.width ∧ p.low 16 = (w.low 16 >>> place) % 2 ^ bits

theorem sliceOf_within (h : inner.Within outer) : bank.sliceOf inner =
    ⟨((bank.sliceOf outer).bytes.drop (inner.offset - outer.offset)).take inner.width⟩ := by
  have hstart := h.start
  have hstop := h.stop
  have hwidth : min inner.width (outer.width - (inner.offset - outer.offset)) = inner.width := by
    omega
  rw [sliceOf, sliceOf, List.drop_take, List.take_take, hwidth, List.drop_drop,
    Nat.add_sub_cancel' hstart]

namespace Filled

variable (h : bank.Filled)
include h

theorem read_name (hentry : inner ∈ bank.layout.entries) :
    bank.read inner.name = .ok (bank.sliceOf inner) :=
  h.read_eq_ok_iff.2 ⟨inner, hentry, spelledBy_name h.layout hentry, rfl⟩

theorem width_sliceOf (hentry : inner ∈ bank.layout.entries) :
    (bank.sliceOf inner).width = inner.width := width_of_value? (h.value?_eq hentry)

/-- A slice inside another one shows the bits from where it starts. -/
theorem views (hinner : inner ∈ bank.layout.entries) (houter : outer ∈ bank.layout.entries)
    (hwithin : inner.Within outer) :
    bank.Views inner.name outer.name (8 * (inner.offset - outer.offset)) (8 * inner.width) := by
  have hstart := hwithin.start
  have hstop := hwithin.stop
  have hwidth := h.width_sliceOf houter
  have hvalue : (bank.sliceOf outer).width ≤ 16 := by
    rw [hwidth]
    exact width_le _ h.layout outer houter
  refine ⟨_, _, h.read_name hinner, h.read_name houter, by rw [h.width_sliceOf hinner], by omega,
    ?_⟩
  rw [sliceOf_within hwithin]
  exact RegisterValue.low_part hvalue (width_le _ h.layout inner hinner) _

/-- A slice that starts so many bytes after another one and ends no later. -/
theorem views_from (place : Nat) (hinner : inner ∈ bank.layout.entries)
    (houter : outer ∈ bank.layout.entries) (hstart : inner.offset = outer.offset + place)
    (hstop : place + inner.width ≤ outer.width) :
    bank.Views inner.name outer.name (8 * place) (8 * inner.width) := by
  have hview := h.views hinner houter ⟨by omega, by omega⟩
  rwa [hstart, Nat.add_sub_cancel_left] at hview

theorem views_amd64 (ha : bank.architecture = .amd64) :
    bank.Views "eax" "rax" 0 32 ∧ bank.Views "ax" "rax" 0 16 ∧ bank.Views "al" "rax" 0 8 ∧
      bank.Views "ah" "rax" 8 8 := by
  have hslices := entries_of_amd64 h.layout ha
  have hwhole : ⟨"rax", 120, 8, .general, true⟩ ∈ bank.layout.entries :=
    hslices (by simp [Amd64.slices, Amd64.registers, Amd64.generalOffsets])
  have hparts : Amd64.olderParts ⊆ bank.layout.entries := fun _ hpart =>
    hslices (by simp [Amd64.slices, hpart])
  refine ⟨h.views_from 0 (hparts (?_ : Amd64.part "eax" 120 4 ∈ _)) hwhole rfl (by decide),
    h.views_from 0 (hparts (?_ : Amd64.part "ax" 120 2 ∈ _)) hwhole rfl (by decide),
    h.views_from 0 (hparts (?_ : Amd64.part "al" 120 1 ∈ _)) hwhole rfl (by decide),
    h.views_from 1 (hparts (?_ : Amd64.part "ah" 121 1 ∈ _)) hwhole rfl (by decide)⟩
  all_goals simp [Amd64.olderParts]

theorem views_arm (ha : bank.architecture = .arm) (hn : n < 16) :
    bank.Views ("s" ++ toString (2 * n)) ("d" ++ toString n) 0 32 ∧
      bank.Views ("s" ++ toString (2 * n + 1)) ("d" ++ toString n) 32 32 ∧
      bank.Views ("d" ++ toString (2 * n)) ("q" ++ toString n) 0 64 ∧
      bank.Views ("d" ++ toString (2 * n + 1)) ("q" ++ toString n) 64 64 := by
  have hslices := entries_of_arm h.layout ha
  have hd : numbered "d" 32 80 8 8 .floatingPoint true ⊆ bank.layout.entries := fun _ hmem =>
    hslices (by simp [Arm.slices, hmem])
  have hs : numbered "s" 32 80 4 4 .floatingPoint false ⊆ bank.layout.entries := fun _ hmem =>
    hslices (by simp [Arm.slices, hmem])
  have hq : numbered "q" 16 80 16 16 .vector false ⊆ bank.layout.entries := fun _ hmem =>
    hslices (by simp [Arm.slices, hmem])
  have hwhole := hd (mem_numbered (show n < 32 by omega) ..)
  have hquad := hq (mem_numbered hn ..)
  exact ⟨h.views_from 0 (hs (mem_numbered (show 2 * n < 32 by omega) ..)) hwhole
      (by simp only; omega) (by simp),
    h.views_from 4 (hs (mem_numbered (show 2 * n + 1 < 32 by omega) ..)) hwhole
      (by simp only; omega) (by simp),
    h.views_from 0 (hd (mem_numbered (show 2 * n < 32 by omega) ..)) hquad
      (by simp only; omega) (by simp),
    h.views_from 8 (hd (mem_numbered (show 2 * n + 1 < 32 by omega) ..)) hquad
      (by simp only; omega) (by simp)⟩

theorem views_arm64 (ha : bank.architecture = .arm64) (hn : n < 32) :
    bank.Views ("w" ++ toString n) ("x" ++ toString n) 0 32 ∧
      bank.Views ("q" ++ toString n) ("v" ++ toString n) 0 128 ∧
      bank.Views ("d" ++ toString n) ("v" ++ toString n) 0 64 ∧
      bank.Views ("s" ++ toString n) ("v" ++ toString n) 0 32 ∧
      bank.Views ("h" ++ toString n) ("v" ++ toString n) 0 16 ∧
      bank.Views ("b" ++ toString n) ("v" ++ toString n) 0 8 := by
  obtain ⟨cpsr, fpsr, fpcr, vector, debug, hslices⟩ := entries_of_arm64 h.layout ha
  have hx : numbered "x" 32 8 8 8 .general true ⊆ bank.layout.entries := fun _ hmem =>
    hslices (by simp [Arm64.slices, Arm64.wordSlices, hmem])
  have hw : numbered "w" 32 8 8 4 .general false ⊆ bank.layout.entries := fun _ hmem =>
    hslices (by simp [Arm64.slices, hmem])
  have hv : numbered "v" 32 vector 16 16 .vector true ⊆ bank.layout.entries := fun _ hmem =>
    hslices (by simp [Arm64.slices, hmem])
  have hparts : ∀ entry ∈ ([⟨"q" ++ toString n, vector + 16 * n, 16, .vector, false⟩,
      ⟨"d" ++ toString n, vector + 16 * n, 8, .floatingPoint, false⟩,
      ⟨"s" ++ toString n, vector + 16 * n, 4, .floatingPoint, false⟩,
      ⟨"h" ++ toString n, vector + 16 * n, 2, .floatingPoint, false⟩,
      ⟨"b" ++ toString n, vector + 16 * n, 1, .floatingPoint, false⟩] : List RegisterEntry),
      entry ∈ bank.layout.entries := fun _ hpart => hslices (List.mem_append_right _
    (List.mem_flatMap.2 ⟨n, List.mem_range.2 hn, hpart⟩))
  simp only [List.forall_mem_cons] at hparts
  obtain ⟨hq, hd, hs, hh, hb, _⟩ := hparts
  have hwhole := hv (mem_numbered hn ..)
  exact ⟨h.views_from 0 (hw (mem_numbered hn ..)) (hx (mem_numbered hn ..)) rfl (by simp),
    h.views_from 0 hq hwhole rfl (by simp), h.views_from 0 hd hwhole rfl (by simp),
    h.views_from 0 hs hwhole rfl (by simp), h.views_from 0 hh hwhole rfl (by simp),
    h.views_from 0 hb hwhole rfl (by simp)⟩

end Filled

/-- A name whose slice lies inside that of another one reads its bits from where the slice starts:
the names for parts of a register, and those for its own bytes. The digits of a value are two for
each byte and its number, of which the 64 bits are the lower ones of the 128. -/
theorem views_exact {tag : UInt16} {platform : Platform} {context : Buffer}
    (h : ofContext tag platform context = .ok bank) :
    (∀ inner ∈ bank.layout.entries, ∀ outer ∈ bank.layout.entries, inner.Within outer →
      bank.Views inner.name outer.name (8 * (inner.offset - outer.offset)) (8 * inner.width)) ∧
    (bank.architecture = .amd64 → bank.Views "eax" "rax" 0 32 ∧ bank.Views "ax" "rax" 0 16 ∧
      bank.Views "al" "rax" 0 8 ∧ bank.Views "ah" "rax" 8 8) ∧
    (bank.architecture = .arm → ∀ n < 16,
      bank.Views ("s" ++ toString (2 * n)) ("d" ++ toString n) 0 32 ∧
      bank.Views ("s" ++ toString (2 * n + 1)) ("d" ++ toString n) 32 32 ∧
      bank.Views ("d" ++ toString (2 * n)) ("q" ++ toString n) 0 64 ∧
      bank.Views ("d" ++ toString (2 * n + 1)) ("q" ++ toString n) 64 64) ∧
    (bank.architecture = .arm64 → ∀ n < 32,
      bank.Views ("w" ++ toString n) ("x" ++ toString n) 0 32 ∧
      bank.Views ("q" ++ toString n) ("v" ++ toString n) 0 128 ∧
      bank.Views ("d" ++ toString n) ("v" ++ toString n) 0 64 ∧
      bank.Views ("s" ++ toString n) ("v" ++ toString n) 0 32 ∧
      bank.Views ("h" ++ toString n) ("v" ++ toString n) 0 16 ∧
      bank.Views ("b" ++ toString n) ("v" ++ toString n) 0 8) ∧
    ∀ value : RegisterValue, value.text.toList = '0' :: 'x' :: value.hexDigits ∧
      value.hexDigits.length = 2 * value.width ∧ (∀ c ∈ value.hexDigits, c ∈ Hex.lowerDigits) ∧
      (value.width ≤ 16 → Numeral.value? 16 value.hexDigits = some (value.low 16)) ∧
      value.low 8 = value.low 16 % 2 ^ 64 := by
  obtain ⟨hfilled, _⟩ := filled_of_ofContext h
  refine ⟨fun inner hinner outer houter => hfilled.views hinner houter, hfilled.views_amd64,
    fun ha n => hfilled.views_arm ha, fun ha n => hfilled.views_arm64 ha, fun value => ?_⟩
  refine ⟨value.toList_text, value.length_hexDigits,
    fun c => Hex.mem_lowerDigits_of_mem_byteDigits, fun hwidth => ?_, ?_⟩
  · rw [value.value?_digits, RegisterValue.low_of_width_le hwidth]
  · exact (RegisterValue.low_mod (by decide : 8 ≤ 16)).symm

theorem views_exact_counted : ∃ bank, ofContext 5 .linux counted = .ok bank ∧
    bank.Views "lr" "r14" 0 32 ∧ bank.Views "s3" "d1" 32 32 ∧ bank.Views "d3" "q1" 64 64 ∧
    Numeral.value? 16 (RegisterValue.hexDigits ⟨[0x34, 0x12]⟩) = some 0x1234 := by
  have hbank : ofContext 5 .linux counted = .ok ⟨Arm.standard, counted⟩ :=
    ofContext_eq_ok_iff.2 ⟨rfl, rfl, by decide +kernel⟩
  obtain ⟨hviews, _, harm, _, hvalue⟩ := views_exact hbank
  obtain ⟨_, hsingle, _, hdouble⟩ := harm rfl 1 (by decide)
  refine ⟨_, hbank, ?_, hsingle, hdouble, (hvalue ⟨[0x34, 0x12]⟩).2.2.2.1 (by decide)⟩
  exact hviews ⟨"lr", 60, 4, .general, false⟩ (by decide +kernel) ⟨"r14", 60, 4, .general, true⟩
    (by decide +kernel) ⟨Nat.le_refl _, Nat.le_refl _⟩

end RegisterBank
end CrashDump

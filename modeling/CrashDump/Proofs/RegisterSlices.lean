import CrashDump.Proofs.Outcome
import CrashDump.Register.Bank

/-!
# Slices of registers

A bank that was made of a context has every slice that its layout names. Whatever the layout, the
program counter, the stack pointer and the frame pointer are slices as wide as a pointer, and three
different ones, so each one tells which is meant.
-/
namespace CrashDump

theorem find?_of_unique {α : Type} {p : α → Bool} {x : α} {xs : List α} (hx : x ∈ xs)
    (hp : p x = true) (hunique : ∀ y ∈ xs, p y = true → y = x) : xs.find? p = some x := by
  obtain ⟨y, hy⟩ := Option.isSome_iff_exists.1 (List.find?_isSome.2 ⟨x, hx, hp⟩)
  rw [hy, hunique y (List.mem_of_find?_eq_some hy) (List.find?_some hy)]

theorem LittleEndian.count_eq (width : Nat) : count width = 2 ^ (8 * width) := by
  induction width with
  | zero => rfl
  | succ width ih => rw [count, ih, Nat.mul_succ, Nat.pow_add, Nat.mul_comm]

namespace RegisterValue

theorem low_lt {value : RegisterValue} {count : Nat} (h : value.width ≤ count) :
    value.low count < 2 ^ (8 * value.width) := by
  have hlt := LittleEndian.value_lt value.bytes
  rw [LittleEndian.count_eq] at hlt
  rwa [low, List.take_of_length_le h]

theorem toNat_address (value : RegisterValue) : value.address.toNat = value.low 8 := by
  have hlt := LittleEndian.value_lt (value.bytes.take 8)
  have hpow : 2 ^ (8 * (value.bytes.take 8).length) ≤ 2 ^ 64 := by
    refine Nat.pow_le_pow_right (by decide) ?_
    rw [List.length_take]
    omega
  rw [LittleEndian.count_eq] at hlt
  exact Address.toNat_ofNat (Nat.lt_of_lt_of_le hlt hpow)

theorem low_take_bytes {width : Nat} (h : width ≤ 8) (n : Nat) :
    low ⟨(LittleEndian.bytes 8 n).take width⟩ 8 = n % 2 ^ (8 * width) := by
  have hlength : (LittleEndian.bytes width n).length ≤ 8 := by rwa [LittleEndian.length_bytes]
  rw [LittleEndian.take_bytes h, low, List.take_of_length_le hlength, LittleEndian.value_bytes,
    LittleEndian.count_eq]

end RegisterValue

theorem Architecture.pointerSize_le (architecture : Architecture) :
    architecture.pointerSize ≤ 8 := by
  cases architecture <;> decide

namespace RegisterLayout

def all : List RegisterLayout :=
  [Amd64.windows, Amd64.systemV, Arm.apple, Arm.standard, Arm64.packed, Arm64.aligned]

variable {layout : RegisterLayout} {tag : UInt16} {platform : Platform} {context : Buffer}

theorem layoutOf_eq (context : Buffer) :
    Arm64.layoutOf context = Arm64.packed ∨ Arm64.layoutOf context = Arm64.aligned := by
  unfold Arm64.layoutOf
  simp only
  split
  · exact .inr rfl
  · split
    · exact .inl rfl
    · exact .inr rfl

theorem select_eq_ok_iff : select tag platform context = .ok layout ↔
    (tag = 9 ∧ (if platform = .windows then Amd64.windows else Amd64.systemV) = layout) ∨
    (tag = 5 ∧ (if platform.isApple then Arm.apple else Arm.standard) = layout) ∨
    (tag = 0x8003 ∧ Arm64.packed = layout) ∨
    (tag = 12 ∧ Arm64.layoutOf context = layout) := by
  unfold select
  split
  · next htag => simp [htag]
  split
  · next htag => simp [htag]
  split
  · next htag => simp [htag]
  split
  · next htag => simp [htag]
  · next hfirst hsecond hthird hfourth => simp [hfirst, hsecond, hthird, hfourth]

/-- The layout that a processor tag selects is one for that processor. -/
theorem select_spec (h : select tag platform context = .ok layout) :
    layout ∈ all ∧ Architecture.ofTag? tag = some layout.kind.architecture := by
  rcases select_eq_ok_iff.1 h with ⟨rfl, rfl⟩ | ⟨rfl, rfl⟩ | ⟨rfl, rfl⟩ | ⟨rfl, rfl⟩
  · split
    · exact ⟨by simp [all], rfl⟩
    · exact ⟨by simp [all], rfl⟩
  · split
    · exact ⟨by simp [all], rfl⟩
    · exact ⟨by simp [all], rfl⟩
  · exact ⟨by simp [all], rfl⟩
  · rcases layoutOf_eq context with heq | heq
    · rw [heq]
      exact ⟨by simp [all], rfl⟩
    · rw [heq]
      exact ⟨by simp [all], rfl⟩

/-- Every slice of a layout lies in the contexts that are long enough for the layout. -/
theorem within_contextSize : ∀ layout ∈ all, ∀ entry ∈ layout.entries,
    entry.offset + entry.width ≤ layout.contextSize := by
  decide +kernel

/-- The registers that every frame has. -/
def frameNames : List String := ["pc", "sp", "fp"]

theorem exists_frame_entry : ∀ layout ∈ all, ∀ name ∈ frameNames, ∃ entry ∈ layout.lookup? name,
    entry.width = layout.kind.architecture.pointerSize ∧
    entry.offset + entry.width ≤ layout.contextSize ∧
    ∀ other ∈ frameNames, ∀ slice ∈ layout.lookup? other,
      slice.sameSlice entry = true → other = name := by
  decide +kernel

theorem width_lr : ∀ layout ∈ all, ∀ entry ∈ layout.lookup? "lr",
    entry.width = layout.kind.architecture.pointerSize := by
  decide +kernel

end RegisterLayout

namespace RegisterBank

open RegisterLayout

variable {bank : RegisterBank} {entry : RegisterEntry} {name : String} {value : RegisterValue}

/-- The layout is one of those in use, and the context has all of its bytes. -/
structure Filled (bank : RegisterBank) : Prop where
  layout : bank.layout ∈ all
  size : bank.layout.contextSize ≤ bank.context.size

/-- The bytes of a context that an entry names. -/
def sliceOf (bank : RegisterBank) (entry : RegisterEntry) : RegisterValue :=
  ⟨(bank.context.bytes.drop entry.offset).take entry.width⟩

theorem ofContext_eq_ok_iff {tag : UInt16} {platform : Platform} {context : Buffer} :
    ofContext tag platform context = .ok bank ↔
      select tag platform context = .ok bank.layout ∧ bank.context = context ∧
      bank.layout.contextSize ≤ context.size := by
  constructor
  · intro h
    obtain ⟨layout, hlayout, h⟩ := bind_eq_ok.1 h
    split at h
    · simp at h
    · next hsize =>
      obtain rfl := Except.ok.inj h
      exact ⟨hlayout, rfl, Nat.le_of_not_lt hsize⟩
  · rintro ⟨hlayout, rfl, hsize⟩
    refine bind_eq_ok.2 ⟨bank.layout, hlayout, ?_⟩
    rw [if_neg (Nat.not_lt.2 hsize)]

theorem filled_of_ofContext {tag : UInt16} {platform : Platform} {context : Buffer}
    (h : ofContext tag platform context = .ok bank) :
    bank.Filled ∧ Architecture.ofTag? tag = some bank.architecture := by
  obtain ⟨hlayout, rfl, hsize⟩ := ofContext_eq_ok_iff.1 h
  obtain ⟨hmem, htag⟩ := select_spec hlayout
  exact ⟨⟨hmem, hsize⟩, htag⟩

theorem width_of_value? (h : bank.value? entry = some value) :
    value.width = entry.width := by
  obtain ⟨slice, hslice, rfl⟩ := Option.map_eq_some_iff.1 h
  rw [RegisterValue.width, Buffer.length_bytes, Buffer.size_of_slice? hslice]

theorem exists_entry_of_read (h : bank.read name = .ok value) :
    ∃ entry, bank.layout.lookup? name = some entry ∧ value.width = entry.width := by
  unfold read at h
  split at h
  · simp at h
  · next entry hentry =>
    split at h
    · simp at h
    · next found hfound =>
      obtain rfl := Except.ok.inj h
      exact ⟨entry, hentry, width_of_value? hfound⟩

namespace Filled

theorem within (h : bank.Filled) (hentry : entry ∈ bank.layout.entries) :
    entry.offset + entry.width ≤ bank.context.size :=
  Nat.le_trans (within_contextSize bank.layout h.layout entry hentry) h.size

theorem value?_eq (h : bank.Filled) (hentry : entry ∈ bank.layout.entries) :
    bank.value? entry = some (bank.sliceOf entry) := by
  rw [value?, Buffer.slice?_eq_some_iff.2 ⟨h.within hentry, rfl⟩, Option.map_some,
    Buffer.bytes_extract, Nat.add_sub_cancel_left]
  rfl

/-- A register by name is its slice of the context. -/
theorem read_eq (h : bank.Filled) (name : String) :
    (bank.layout.lookup? name = none ∧ bank.read name = .error (.unknownRegister name)) ∨
      ∃ entry, bank.layout.lookup? name = some entry ∧
        entry.offset + entry.width ≤ bank.layout.contextSize ∧
        bank.read name = .ok (bank.sliceOf entry) := by
  cases hentry : bank.layout.lookup? name with
  | none => exact .inl ⟨rfl, by simp only [read, hentry]⟩
  | some entry =>
    have hmem := List.mem_of_find?_eq_some hentry
    refine .inr ⟨entry, rfl, within_contextSize bank.layout h.layout entry hmem, ?_⟩
    simp only [read, hentry, h.value?_eq hmem]

theorem exists_read (h : bank.Filled) (hname : name ∈ frameNames) :
    ∃ value, bank.read name = .ok value ∧ value.width = bank.architecture.pointerSize := by
  obtain ⟨entry, hentry, hwidth, _, _⟩ := exists_frame_entry _ h.layout name hname
  have hvalue := h.value?_eq (List.mem_of_find?_eq_some hentry)
  refine ⟨bank.sliceOf entry, ?_, (width_of_value? hvalue).trans hwidth⟩
  rw [read, hentry]
  simp only [hvalue]

theorem address_lt (h : bank.Filled) (hname : name ∈ frameNames) :
    (bank.address name).toNat < 2 ^ (8 * bank.architecture.pointerSize) := by
  obtain ⟨value, hread, hwidth⟩ := h.exists_read hname
  have hle : value.width ≤ 8 := hwidth ▸ bank.architecture.pointerSize_le
  rw [address, hread, RegisterValue.toNat_address, ← hwidth]
  exact RegisterValue.low_lt hle

theorem lr?_lt (h : bank.Filled) {lr : Address} (hlr : bank.lr? = some lr) :
    lr.toNat < 2 ^ (8 * bank.architecture.pointerSize) := by
  obtain ⟨value, hread, rfl⟩ := exists_ok_of_map hlr
  obtain ⟨entry, hentry, hwidth⟩ := exists_entry_of_read hread
  rw [width_lr _ h.layout entry hentry] at hwidth
  have hle : value.width ≤ 8 := hwidth ▸ Architecture.pointerSize_le _
  rw [RegisterValue.toNat_address, architecture, ← hwidth]
  exact RegisterValue.low_lt hle

end Filled

end RegisterBank
end CrashDump

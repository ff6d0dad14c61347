import CrashDump.Bytes.Buffer
import CrashDump.Container.Record
import CrashDump.Proofs.Outcome

/-!
# How much readers take

A reader of a fixed-size record succeeds exactly when that many bytes are there. What it reads is put
together from the words at fixed places.
-/
namespace CrashDump

namespace Reader

variable {α β : Type} {reader : Reader α} {next : α → Reader β} {m n size : Nat}
  {f : List UInt8 → α}

/-- A reader that takes `size` bytes, if there are so many, and makes a value of them. -/
def Takes (reader : Reader α) (size : Nat) (f : List UInt8 → α) : Prop :=
  ∀ bytes result, reader bytes = .ok result ↔
    size ≤ bytes.length ∧ (f bytes, bytes.drop size) = result

theorem takes_pure (a : α) : Takes (pure a) 0 fun _ => a := by
  intro bytes result
  change Except.ok (a, bytes) = .ok result ↔ _
  simp

theorem Takes.bind {g : α → List UInt8 → β} (h : Takes reader m f)
    (hnext : ∀ a, Takes (next a) n (g a)) :
    Takes (reader >>= next) (m + n) fun bytes => g (f bytes) (bytes.drop m) := by
  intro bytes result
  change (reader bytes >>= fun p => next p.1 p.2) = .ok result ↔ _
  simp only [bind_eq_ok, h bytes, and_assoc, exists_and_left, exists_eq_left',
    hnext (f bytes) (bytes.drop m), List.length_drop, List.drop_drop]
  constructor
  · rintro ⟨hm, hn, rfl⟩
    exact ⟨by omega, rfl⟩
  · rintro ⟨hmn, rfl⟩
    exact ⟨by omega, by omega, rfl⟩

/-- Where a reader fails, what would come after it is not read. -/
theorem bind_fails {bytes : List UInt8} {fault : ReadFault} (h : reader bytes = .error fault) :
    (reader >>= next) bytes = .error fault := by
  change (reader bytes >>= fun p => next p.1 p.2) = _
  rw [h]
  rfl

theorem Takes.fails (h : Takes reader size f) {bytes : List UInt8} (hshort : bytes.length < size) :
    ∃ fault, reader bytes = .error fault := by
  cases hread : reader bytes with
  | error fault => exact ⟨fault, rfl⟩
  | ok result =>
    have hle := ((h bytes result).1 hread).1
    omega

/-- Whatever a reader gives has a property. -/
def Yields (reader : Reader α) (property : α → Prop) : Prop :=
  ∀ bytes a rest, reader bytes = .ok (a, rest) → property a

theorem yields_pure {property : α → Prop} {a : α} (h : property a) : Yields (pure a) property := by
  intro bytes b rest hb
  obtain ⟨rfl, _⟩ := Prod.mk.inj (Except.ok.inj hb)
  exact h

theorem exists_of_bind {bytes : List UInt8} {result : β × List UInt8}
    (h : (reader >>= next) bytes = .ok result) :
    ∃ a rest, reader bytes = .ok (a, rest) ∧ next a rest = .ok result := by
  change (reader bytes >>= fun p => next p.1 p.2) = .ok result at h
  obtain ⟨⟨a, rest⟩, ha, h⟩ := CrashDump.bind_eq_ok.1 h
  exact ⟨a, rest, ha, h⟩

theorem yields_bind {property : β → Prop} (h : ∀ a, Yields (next a) property) :
    Yields (reader >>= next) property := by
  intro bytes b rest hb
  obtain ⟨a, left, _, hnext⟩ := exists_of_bind hb
  exact h a left b rest hnext

theorem takes_take (width : Nat) : Takes (take width) width (List.take width) := by
  intro bytes result
  simp only [take, List.length_take]
  split
  · simp; omega
  · simp; omega

/-- The number in the first `width` bytes. -/
def number (width : Nat) (bytes : List UInt8) : Nat := LittleEndian.value (bytes.take width)

theorem takes_word (width : Nat) : Takes (word width) width (number width) :=
  (takes_take width).bind fun _ => takes_pure _

/-- The first four bytes as a word. -/
def word32 (bytes : List UInt8) : UInt32 := UInt32.ofNat (number 4 bytes)

theorem number_take {width : Nat} {bytes : List UInt8} (h : width ≤ n) :
    number width (bytes.take n) = number width bytes := by
  rw [number, number, List.take_take, Nat.min_eq_left h]

theorem word32_take {bytes : List UInt8} (h : 4 ≤ n) : word32 (bytes.take n) = word32 bytes := by
  rw [word32, word32, number_take h]

theorem word32_eq_iff {bytes : List UInt8} {word : UInt32} (h : 4 ≤ bytes.length) :
    word32 bytes = word ↔ bytes.take 4 = LittleEndian.bytes 4 word.toNat := by
  have hlength : (bytes.take 4).length = 4 := by simp [h]
  have hlt : number 4 bytes < UInt32.size := by
    have hlt := LittleEndian.value_lt (bytes.take 4)
    rwa [hlength] at hlt
  have hbytes := LittleEndian.bytes_value (bytes.take 4)
  rw [hlength] at hbytes
  constructor
  · rintro rfl
    rw [word32, UInt32.toNat_ofNat', Nat.mod_eq_of_lt hlt, number, hbytes]
  · intro hw
    have hvalue : number 4 bytes = word.toNat := by
      rw [number, hw, LittleEndian.value_bytes]
      exact Nat.mod_eq_of_lt word.toNat_lt
    rw [word32, hvalue, UInt32.ofNat_toNat]

theorem takes_word8 :
    Takes (Record.read : Reader UInt8) 1 fun bytes => UInt8.ofNat (number 1 bytes) :=
  (takes_word 1).bind fun _ => takes_pure _

theorem takes_word16 :
    Takes (Record.read : Reader UInt16) 2 fun bytes => UInt16.ofNat (number 2 bytes) :=
  (takes_word 2).bind fun _ => takes_pure _

theorem takes_word32 : Takes (Record.read : Reader UInt32) 4 word32 :=
  (takes_word 4).bind fun _ => takes_pure _

theorem takes_word64 :
    Takes (Record.read : Reader UInt64) 8 fun bytes => UInt64.ofNat (number 8 bytes) :=
  (takes_word 8).bind fun _ => takes_pure _

/-- A row takes as many bytes as its values together. -/
theorem exists_takes_row (h : Takes reader size f) (count : Nat) :
    ∃ g, Takes (row reader count) (count * size) g := by
  induction count with
  | zero =>
    rw [Nat.zero_mul]
    exact ⟨_, takes_pure _⟩
  | succ count ih =>
    obtain ⟨g, hg⟩ := ih
    rw [Nat.succ_mul]
    exact ⟨_, hg.bind fun front => h.bind fun _ => takes_pure _⟩

theorem takes_location : Takes (Record.read : Reader Location) 8 fun bytes =>
    ⟨word32 bytes, word32 (bytes.drop 4)⟩ :=
  takes_word32.bind fun _ => takes_word32.bind fun _ => takes_pure _

theorem takes_directoryEntry : Takes (Record.read : Reader DirectoryEntry) 12 fun bytes =>
    ⟨word32 bytes, word32 (bytes.drop 4), word32 (bytes.drop 8)⟩ := by
  have h := takes_word32.bind fun tag => takes_location.bind fun location =>
    takes_pure (DirectoryEntry.mk tag location)
  simp only [List.drop_drop] at h
  exact h

theorem takes_header : Takes (Record.read : Reader Header) 32 fun bytes =>
    ⟨word32 bytes, word32 (bytes.drop 4), word32 (bytes.drop 8), word32 (bytes.drop 12),
      word32 (bytes.drop 16), word32 (bytes.drop 20),
      UInt64.ofNat (number 8 (bytes.drop 24))⟩ := by
  have h := takes_word32.bind fun signature => takes_word32.bind fun version =>
    takes_word32.bind fun count => takes_word32.bind fun offset =>
      takes_word32.bind fun checksum => takes_word32.bind fun stamp =>
        takes_word64.bind fun flags =>
          takes_pure (Header.mk signature version count offset checksum stamp flags)
  simp only [List.drop_drop] at h
  exact h

/-- The processor tag is the first word of the system information. -/
theorem processor_of_read {bytes rest : List UInt8} {info : SystemInfo}
    (h : (Record.read : Reader SystemInfo) bytes = .ok (info, rest)) :
    info.processor = UInt16.ofNat (number 2 bytes) := by
  change SystemInfo.read bytes = _ at h
  unfold SystemInfo.read at h
  obtain ⟨processor, left, hprocessor, h⟩ := exists_of_bind h
  obtain ⟨_, htag⟩ := (takes_word16 bytes (processor, left)).1 hprocessor
  have htag : UInt16.ofNat (number 2 bytes) = processor := (Prod.mk.inj htag).1
  rw [htag]
  -- The fields that follow leave the tag alone.
  refine (?_ : Yields _ fun info : SystemInfo => info.processor = processor) left info rest h
  iterate 12 refine yields_bind fun _ => ?_
  exact yields_pure rfl

end Reader

theorem Buffer.exists_of_readAt {α : Type} [Record α] {data : Buffer} {offset : Nat} {a : α}
    (h : data.readAt offset = .ok a) : ∃ rest,
      (Record.read : Reader α) ((data.bytes.drop offset).take (Record.size α)) = .ok (a, rest) := by
  unfold readAt at h
  split at h
  · simp at h
  · rw [bytes_extract, Nat.add_sub_cancel_left] at h
    change ((Record.read : Reader α) _).map Prod.fst = .ok a at h
    obtain ⟨⟨_, rest⟩, hread, rfl⟩ := map_eq_ok.1 h
    exact ⟨rest, hread⟩

theorem Buffer.readAt_eq_ok_iff {α : Type} [Record α] {data : Buffer} {offset size : Nat} {a : α}
    {f : List UInt8 → α} (h : Reader.Takes (Record.read : Reader α) size f)
    (hrecord : Record.size α = size) :
    data.readAt offset = .ok a ↔ offset + size ≤ data.size ∧
      f ((data.bytes.drop offset).take size) = a := by
  subst hrecord
  have hbytes : bytes (data.extract offset (offset + Record.size α)) =
      (data.bytes.drop offset).take (Record.size α) := by
    rw [bytes_extract, Nat.add_sub_cancel_left]
  have hrun : (Record.read : Reader α).run' ((data.bytes.drop offset).take (Record.size α)) =
      ((Record.read : Reader α) ((data.bytes.drop offset).take (Record.size α))).map Prod.fst :=
    rfl
  rw [readAt, hbytes, hrun]
  by_cases hoffset : data.size < offset
  · rw [if_pos hoffset]
    simp; omega
  · rw [if_neg hoffset, map_eq_ok]
    simp only [h _, List.length_take, List.length_drop, length_bytes]
    constructor
    · rintro ⟨p, ⟨hsize, rfl⟩, rfl⟩
      exact ⟨by omega, rfl⟩
    · rintro ⟨hsize, rfl⟩
      exact ⟨_, ⟨by omega, rfl⟩, rfl⟩

end CrashDump

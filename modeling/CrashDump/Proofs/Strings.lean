import CrashDump.Proofs.ListStreams
import CrashDump.Proofs.Utf16

/-!
# Strings of a dump

A string is a count of bytes and then text in UTF-16. Reading gives back the text that was written,
but for the NULs at its end, and is refused where the count or its bytes are not there.
-/
namespace CrashDump.Container

variable {c : Container} {place : UInt32} {payload extra : List UInt8} {read : String}

theorem exists_eq_append_nuls (text : List Char) :
    ∃ count, text = dropNuls text ++ List.replicate count '\x00' := by
  have hnuls : ∀ c ∈ text.rtakeWhile (fun c => c == '\x00'), c = '\x00' := by
    intro c hc
    have hnul := List.mem_rtakeWhile_imp hc
    exact eq_of_beq hnul
  refine ⟨(text.rtakeWhile fun c => c == '\x00').length, ?_⟩
  rw [← List.eq_replicate_iff.2 ⟨rfl, hnuls⟩]
  exact List.rdropWhile_append_rtakeWhile.symm

theorem getLast?_dropNuls (text : List Char) : (dropNuls text).getLast? ≠ some '\x00' := by
  intro hlast
  have hne : dropNuls text ≠ [] := by
    intro hnil
    simp [hnil] at hlast
  have hnot := List.rdropWhile_last_not (fun c => c == '\x00') text hne
  rw [List.getLast?_eq_some_getLast hne, Option.some.injEq] at hlast
  exact hnot (beq_iff_eq.2 hlast)

theorem dropNuls_eq_self {text : List Char} (h : text.getLast? ≠ some '\x00') :
    dropNuls text = text := by
  refine List.rdropWhile_eq_self_iff.2 fun hne hnul => h ?_
  rw [List.getLast?_eq_some_getLast hne, eq_of_beq hnul]

/-- How many bytes the string at a place says it has. -/
def stringSize (data : Buffer) (place : Nat) : Nat := (field data place).toNat

/-- The text that bytes stand for. -/
def textOf (payload : List UInt8) : String :=
  String.ofList (dropNuls (Utf16.decode (Utf16.units payload)))

theorem recordAt_stringSize_iff {data : Buffer} {place : Nat} {size : UInt32} :
    recordAt data place = .ok size ↔ place + 4 ≤ data.size ∧ field data place = size := by
  rw [recordAt_eq_ok_iff Reader.takes_word32 rfl, Reader.word32_take (Nat.le_refl 4), field]

theorem string_eq_ok_iff : c.string place = .ok read ↔ place.toNat + 4 ≤ c.data.size ∧
    place.toNat + 4 + stringSize c.data place.toNat ≤ c.data.size ∧
    textOf ((c.data.bytes.drop (place.toNat + 4)).take (stringSize c.data place.toNat)) = read := by
  have hstart : place.toNat + 4 < UInt64.size := by
    have hplace := place.toNat_lt
    simp only [UInt64.size]
    omega
  simp only [string, bind_eq_ok, recordAt_stringSize_iff, offset_eq_ok_iff, slice_eq_ok_iff,
    Buffer.slice?_eq_some_iff]
  constructor
  · rintro ⟨_, ⟨hcount, rfl⟩, _, ⟨_, rfl⟩, _, ⟨hinside, rfl⟩, h⟩
    rw [Buffer.bytes_extract, Nat.add_sub_cancel_left] at h
    exact ⟨hcount, hinside, Except.ok.inj h⟩
  · rintro ⟨hcount, hinside, rfl⟩
    refine ⟨_, ⟨hcount, rfl⟩, _, ⟨hstart, rfl⟩, _, ⟨hinside, rfl⟩, ?_⟩
    rw [Buffer.bytes_extract, Nat.add_sub_cancel_left]
    rfl

/-- Bytes stand at a place, after their count. -/
structure Stands (data : Buffer) (place : Nat) (payload : List UInt8) : Prop where
  short : payload.length < 2 ^ 32
  bytes : (data.bytes.drop place).take (4 + payload.length) =
    LittleEndian.bytes 4 payload.length ++ payload

namespace Stands

variable {data : Buffer} {start : Nat} (h : Stands data start payload)
include h

theorem inside : start + 4 + payload.length ≤ data.size := by
  have hlength := congrArg List.length h.bytes
  rw [List.length_take, List.length_drop, List.length_append, LittleEndian.length_bytes,
    Buffer.length_bytes] at hlength
  omega

theorem stringSize_eq : stringSize data start = payload.length := by
  have hsize : (UInt32.ofNat payload.length).toNat = payload.length := by
    rw [UInt32.toNat_ofNat', Nat.mod_eq_of_lt h.short]
  have hcount : recordAt data start = .ok (UInt32.ofNat payload.length) := by
    refine recordAt_of_take (by decide) ?_
    change (data.bytes.drop start).take 4 = LittleEndian.bytes 4 _
    rw [hsize, ← List.take_left' (LittleEndian.length_bytes 4 payload.length), ← h.bytes,
      List.take_take, Nat.min_eq_left (Nat.le_add_right 4 _)]
  rw [stringSize, (recordAt_stringSize_iff.1 hcount).2, hsize]

theorem payload_eq : (data.bytes.drop (start + 4)).take payload.length = payload := by
  have hdrop := congrArg (List.drop 4) h.bytes
  rw [List.drop_left' (LittleEndian.length_bytes 4 _), List.drop_take, List.drop_drop,
    Nat.add_sub_cancel_left] at hdrop
  exact hdrop

end Stands

theorem string_of_stands (h : Stands c.data place.toNat payload) :
    c.string place = .ok (textOf payload) := by
  have hinside := h.inside
  have hpayload := h.payload_eq
  rw [string_eq_ok_iff, h.stringSize_eq, hpayload]
  exact ⟨by omega, hinside, rfl⟩

theorem textOf_unitBytes (text : List Char) :
    textOf (Utf16.unitBytes (Utf16.encode text)) = String.ofList (dropNuls text) := by
  rw [textOf, Utf16.units_unitBytes, Utf16.decode_encode]

theorem textOf_append (hpayload : payload.length % 2 = 0) (hextra : extra.length ≤ 1) :
    textOf (payload ++ extra) = textOf payload := by
  rw [textOf, Utf16.units_append hpayload hextra, textOf]

/-- A text that was written is read back without the NULs at its end, and those inside it stay. A
string is refused as malformed exactly if its count or its bytes are not all in the dump. A byte
beyond the last whole unit is of no account: not what it is, nor whether it is there. -/
theorem string_exact (c : Container) (place : UInt32) :
    (∀ text : String,
      Stands c.data place.toNat (Utf16.unitBytes (Utf16.encode text.toList)) →
      ∃ read count, c.string place = .ok read ∧
        text.toList = read.toList ++ List.replicate count '\x00' ∧
        read.toList.getLast? ≠ some '\x00' ∧
        (text.toList.getLast? ≠ some '\x00' → read = text)) ∧
    ((∃ fault, Malformed.lift (c.string place) = .error (.malformed fault)) ↔
      c.data.size < place.toNat + 4 ∨
      c.data.size < place.toNat + 4 + stringSize c.data place.toNat) ∧
    ∀ (other : Container) (place' : UInt32) (payload extra extra' : List UInt8),
      payload.length % 2 = 0 → extra.length ≤ 1 → extra'.length ≤ 1 →
      Stands c.data place.toNat (payload ++ extra) →
      Stands other.data place'.toNat (payload ++ extra') →
      c.string place = other.string place' := by
  refine ⟨fun text h => ?_, ?_,
    fun other place' payload extra extra' hpayload hextra hextra' h h' => ?_⟩
  · obtain ⟨count, hcount⟩ := exists_eq_append_nuls text.toList
    refine ⟨String.ofList (dropNuls text.toList), count, ?_, ?_, ?_, fun hlast => ?_⟩
    · rw [string_of_stands h, textOf_unitBytes]
    · rwa [String.toList_ofList]
    · rw [String.toList_ofList]
      exact getLast?_dropNuls text.toList
    · rw [dropNuls_eq_self hlast, String.ofList_toList]
  · rw [Malformed.exists_lift_eq_error_iff]
    simp only [string_eq_ok_iff]
    constructor
    · intro hnone
      by_contra hno
      rw [not_or, Nat.not_lt, Nat.not_lt] at hno
      exact hnone ⟨_, hno.1, hno.2, rfl⟩
    · rintro h ⟨_, hcount, hinside, _⟩
      omega
  · rw [string_of_stands h, string_of_stands h', textOf_append hpayload hextra,
      textOf_append hpayload hextra']

/-- A character of two units, a NUL and a letter. -/
def spokenText : List Char := [Char.ofNat 0x1f600, '\x00', 'b']

/-- A dump without streams that has three strings, the second of them with an odd last byte. -/
def spoken : Buffer :=
  let header : Header := ⟨signature, 0, 0, 32, 0, 0, 0⟩
  Buffer.ofBytes (Record.write header ++ Record.write (8 : UInt32) ++
    Utf16.unitBytes (Utf16.encode spokenText) ++ Record.write (3 : UInt32) ++ [0x61, 0, 0xff] ++
    Record.write (2 : UInt32) ++ [0x61, 0])

theorem string_exact_spoken : ∃ c, parse spoken = .ok c ∧
    c.string 32 = .ok (String.ofList spokenText) ∧ c.string 44 = c.string 51 ∧
    ∃ fault, Malformed.lift (c.string 55) = .error (.malformed fault) := by
  have hparse : (parse spoken).toOption.map Container.data = some spoken := by decide +kernel
  obtain ⟨c, hc, hdata⟩ := exists_ok_of_map hparse
  obtain ⟨hread, _, _⟩ := string_exact c 32
  obtain ⟨_, _, hodd⟩ := string_exact c 44
  obtain ⟨_, hrefused, _⟩ := string_exact c 55
  rw [hdata] at hread hodd hrefused
  refine ⟨c, hc, ?_, ?_, hrefused.2 (.inl (by decide +kernel))⟩
  · have hstands : Stands spoken 32 (Utf16.unitBytes (Utf16.encode spokenText)) :=
      ⟨by decide +kernel, by decide +kernel⟩
    obtain ⟨read, count, hstring, _, _, hwhole⟩ := hread (String.ofList spokenText)
      (by rw [String.toList_ofList]; exact hstands)
    rw [hstring, hwhole (by rw [String.toList_ofList]; decide)]
  · have hsecond : Stands spoken 44 ([0x61, 0] ++ [0xff]) := ⟨by decide, by decide +kernel⟩
    have hthird : Stands c.data 51 ([0x61, 0] ++ []) := by
      rw [hdata]
      exact ⟨by decide, by decide +kernel⟩
    exact hodd c 51 [0x61, 0] [0xff] [] rfl (Nat.le_refl 1) (Nat.zero_le 1) hsecond hthird

end CrashDump.Container

import CrashDump.Proofs.MemoryLists

/-!
# Entries at a stride

A memory information stream says itself how long its header is and how far apart its entries are.
Each entry is read where these put it and nowhere else, so bytes that a writer adds to the header or
to an entry are passed over. An entry that is not all there ends the reading, whatever the count.
-/
namespace CrashDump

namespace Reader

theorem takes_memoryInfoHeader : Takes (Record.read : Reader MemoryInfoHeader) 16 fun bytes =>
    ⟨word32 bytes, word32 (bytes.drop 4), UInt64.ofNat (number 8 (bytes.drop 8))⟩ := by
  have h := takes_word32.bind fun headerSize => takes_word32.bind fun entrySize =>
    takes_word64.bind fun count => takes_pure (MemoryInfoHeader.mk headerSize entrySize count)
  simp only [List.drop_drop] at h
  exact h

theorem takes_memoryInfo : Takes (Record.read : Reader MemoryInfo) 48 fun bytes =>
    ⟨UInt64.ofNat (number 8 bytes), UInt64.ofNat (number 8 (bytes.drop 8)),
      word32 (bytes.drop 16), word32 (bytes.drop 20), UInt64.ofNat (number 8 (bytes.drop 24)),
      word32 (bytes.drop 32), word32 (bytes.drop 36), word32 (bytes.drop 40),
      word32 (bytes.drop 44)⟩ := by
  have h := takes_word64.bind fun base => takes_word64.bind fun allocationBase =>
    takes_word32.bind fun allocationProtection => takes_word32.bind fun alignment1 =>
      takes_word64.bind fun size => takes_word32.bind fun state =>
        takes_word32.bind fun protection => takes_word32.bind fun type =>
          takes_word32.bind fun alignment2 =>
            takes_pure (MemoryInfo.mk base allocationBase allocationProtection alignment1 size state
              protection type alignment2)
  simp only [List.drop_drop] at h
  exact h

end Reader

namespace Container

variable {c : Container} {stream : Buffer} {place headerSize entrySize i : Nat}

/-- What the header of a memory information stream says. -/
def infoHeader (stream : Buffer) : MemoryInfoHeader :=
  ⟨field stream 0, field stream 4, wideField stream 8⟩

theorem recordAt_infoHeader_iff {header : MemoryInfoHeader} :
    recordAt stream 0 = .ok header ↔ 16 ≤ stream.size ∧ infoHeader stream = header := by
  rw [recordAt_eq_ok_iff Reader.takes_memoryInfoHeader rfl, infoHeader]
  simp (disch := omega) only [field, wideField, List.drop_take, Reader.word32_take,
    Reader.number_take, List.drop_zero, Nat.zero_add]

def infoAt (stream : Buffer) (place : Nat) : MemoryInfo :=
  ⟨wideField stream place, wideField stream (place + 8), field stream (place + 16),
    field stream (place + 20), wideField stream (place + 24), field stream (place + 32),
    field stream (place + 36), field stream (place + 40), field stream (place + 44)⟩

theorem recordAt_info_iff {info : MemoryInfo} :
    recordAt stream place = .ok info ↔ place + 48 ≤ stream.size ∧ infoAt stream place = info := by
  rw [recordAt_eq_ok_iff Reader.takes_memoryInfo rfl, infoAt]
  simp (disch := omega) only [field, wideField, List.drop_take, Reader.word32_take,
    Reader.number_take, List.drop_drop]

/-- The entry of the given number of a memory information stream. -/
def infoEntry (stream : Buffer) (headerSize entrySize i : Nat) : Except Malformed MemoryInfo :=
  if i * entrySize + headerSize < UInt64.size then recordAt stream (i * entrySize + headerSize)
  else .error .infoListTooLong

theorem memoryInfoFrom_eq_mapM (remaining : Nat) :
    memoryInfoFrom stream headerSize entrySize remaining i =
      (List.range' i remaining).mapM (infoEntry stream headerSize entrySize) := by
  induction remaining generalizing i with
  | zero => rfl
  | succ remaining ih =>
    rw [memoryInfoFrom, List.range'_succ, List.mapM_cons, infoEntry, ih]
    split
    · rfl
    · rfl

/-- An entry that is there can be counted: only one beyond the end has a place that no offset can
say. -/
theorem infoEntry_eq_ok_iff (hstream : stream.size < UInt64.size) {info : MemoryInfo} :
    infoEntry stream headerSize entrySize i = .ok info ↔
      headerSize + i * entrySize + 48 ≤ stream.size ∧
        infoAt stream (headerSize + i * entrySize) = info := by
  rw [infoEntry, Nat.add_comm (i * entrySize)]
  split
  · exact recordAt_info_iff
  · next hlarge =>
    have hbeyond : ¬headerSize + i * entrySize + 48 ≤ stream.size := by omega
    simp [hbeyond]

/-- Entries as far apart as they are long are no more than the size of their stream allows. -/
theorem lt_place_beyond (hentry : 48 ≤ entrySize) (size headerSize : Nat) :
    size < headerSize + size / 48 * entrySize + 48 := by
  have hplace : size / 48 * 48 ≤ size / 48 * entrySize := Nat.mul_le_mul_left _ hentry
  omega

/-- However many entries a stream says it has, the loop ends where the stream does. -/
theorem memoryInfoFrom_stops (hstream : stream.size < UInt64.size) (hentry : 48 ≤ entrySize)
    (count : Nat) : memoryInfoFrom stream headerSize entrySize count 0 =
      memoryInfoFrom stream headerSize entrySize (min count (stream.size / 48 + 1)) 0 := by
  rcases Nat.le_total count (stream.size / 48 + 1) with hle | hle
  · rw [Nat.min_eq_left hle]
  · obtain ⟨extra, rfl⟩ := Nat.exists_eq_add_of_le hle
    rw [Nat.min_eq_right hle, memoryInfoFrom_eq_mapM, memoryInfoFrom_eq_mapM,
      ← List.range'_append_1]
    cases hread : (List.range' 0 (stream.size / 48 + 1)).mapM
        (infoEntry stream headerSize entrySize) with
    | error fault => exact mapM_append_eq_error hread
    | ok infos =>
      obtain ⟨hall, _⟩ := (mapM_eq_ok_iff fun _ _ => infoEntry_eq_ok_iff hstream).1 hread
      have hfits := hall (stream.size / 48) (List.mem_range'_1.2 (by omega))
      exact absurd hfits (Nat.not_le.2 (lt_place_beyond hentry stream.size headerSize))

theorem memoryInfoFrom_eq_ok_iff (hstream : stream.size < UInt64.size) {count : Nat}
    {infos : List MemoryInfo} :
    memoryInfoFrom stream headerSize entrySize count 0 = .ok infos ↔
      (∀ i < count, headerSize + i * entrySize + 48 ≤ stream.size) ∧
        (List.range count).map (fun i => infoAt stream (headerSize + i * entrySize)) = infos := by
  rw [memoryInfoFrom_eq_mapM, ← List.range_eq_range',
    mapM_eq_ok_iff fun _ _ => infoEntry_eq_ok_iff hstream]
  simp only [List.mem_range]

/-- The header is there, entries are not closer than they are long, and all of them are there. -/
structure InfoComplete (stream : Buffer) : Prop where
  header : 16 ≤ stream.size
  stride : 48 ≤ (infoHeader stream).entrySize.toNat
  entries : ∀ i < (infoHeader stream).count.toNat, (infoHeader stream).headerSize.toNat +
    i * (infoHeader stream).entrySize.toNat + 48 ≤ stream.size

theorem memoryInfoEntries_eq_ok_iff (hstream : stream.size < UInt64.size)
    {infos : List MemoryInfo} : memoryInfoEntries stream = .ok infos ↔ InfoComplete stream ∧
      (List.range (infoHeader stream).count.toNat).map (fun i =>
        infoAt stream ((infoHeader stream).headerSize.toNat +
          i * (infoHeader stream).entrySize.toNat)) = infos := by
  have hsize : Record.size MemoryInfo = 48 := rfl
  rw [memoryInfoEntries, hsize]
  simp only [bind_eq_ok, recordAt_infoHeader_iff]
  constructor
  · rintro ⟨_, ⟨hheader, rfl⟩, h⟩
    split at h
    · simp at h
    · next hstride =>
      obtain ⟨hentries, hinfos⟩ := (memoryInfoFrom_eq_ok_iff hstream).1 h
      exact ⟨⟨hheader, Nat.le_of_not_lt hstride, hentries⟩, hinfos⟩
  · rintro ⟨hcomplete, hinfos⟩
    refine ⟨_, ⟨hcomplete.header, rfl⟩, ?_⟩
    rw [if_neg (Nat.not_lt.2 hcomplete.stride)]
    exact (memoryInfoFrom_eq_ok_iff hstream).2 ⟨hcomplete.entries, hinfos⟩

theorem memoryInfo_eq (hstream : c.stream? StreamKind.memoryInfoList.tag = some stream) :
    c.memoryInfo = (memoryInfoEntries stream).map some := by
  rw [memoryInfo, hstream]

def infoHeaderFields (r : MemoryInfoHeader) : List (Nat × Nat) :=
  [(4, r.headerSize.toNat), (4, r.entrySize.toNat), (8, r.count.toNat)]

/-- The fields of an entry in file order. -/
def infoFields (r : MemoryInfo) : List (Nat × Nat) :=
  [(8, r.base.toNat), (8, r.allocationBase.toNat), (4, r.allocationProtection.toNat),
    (4, r.alignment1.toNat), (8, r.size.toNat), (4, r.state.toNat), (4, r.protection.toNat),
    (4, r.type.toNat), (4, r.alignment2.toNat)]

theorem write_infoHeader (r : MemoryInfoHeader) :
    Record.write r = fieldBytes (infoHeaderFields r) := by
  simp [fieldBytes, infoHeaderFields, Record.write, MemoryInfoHeader.write]

theorem write_info (r : MemoryInfo) : Record.write r = fieldBytes (infoFields r) := by
  simp [fieldBytes, infoFields, Record.write, MemoryInfo.write]

/-- Entries that stand where the header puts them are read, whatever else the stream holds. -/
theorem memoryInfoEntries_of_packed (hstream : stream.size < UInt64.size)
    {header : MemoryInfoHeader} {items : List MemoryInfo}
    (hheader : stream.bytes.take 16 = fieldBytes (infoHeaderFields header))
    (hstride : 48 ≤ header.entrySize.toNat) (hcount : header.count.toNat = items.length)
    (hitems : ∀ i info, items[i]? = some info →
      (stream.bytes.drop (header.headerSize.toNat + i * header.entrySize.toNat)).take 48 =
        fieldBytes (infoFields info)) :
    memoryInfoEntries stream = .ok items := by
  rw [← write_infoHeader] at hheader
  simp only [← write_info] at hitems
  obtain ⟨hsize, rfl⟩ := recordAt_infoHeader_iff.1 (recordAt_of_take (by decide) hheader)
  have hread : ∀ i info, items[i]? = some info → _ := fun i info hinfo =>
    recordAt_info_iff.1 (recordAt_of_take (by decide) (hitems i info hinfo))
  refine (memoryInfoEntries_eq_ok_iff hstream).2 ⟨⟨hsize, hstride, fun i hi => ?_⟩, ?_⟩
  · rw [hcount] at hi
    exact (hread i _ (List.getElem?_eq_getElem hi)).1
  · refine List.ext_getElem? fun i => ?_
    rcases Nat.lt_or_ge i items.length with hi | hi
    · have hinfo := List.getElem?_eq_getElem hi
      rw [hinfo, List.getElem?_map, List.getElem?_range (hcount ▸ hi), Option.map_some,
        (hread i _ hinfo).2]
    · rw [List.getElem?_eq_none hi, List.getElem?_eq_none (by simpa [hcount] using hi)]

/-- A memory information list is read at the places that its header gives, whatever stands between
the entries and after them. It is refused as malformed exactly if the header or an entry is cut off
or entries would overlap, and no count makes the loop go on beyond the end of the stream. -/
theorem memoryInfo_strided (hstream : c.stream? StreamKind.memoryInfoList.tag = some stream) :
    (∀ (header : MemoryInfoHeader) (items : List MemoryInfo),
      stream.bytes.take 16 = fieldBytes (infoHeaderFields header) →
      48 ≤ header.entrySize.toNat → header.count.toNat = items.length →
      (∀ i info, items[i]? = some info →
        (stream.bytes.drop (header.headerSize.toNat + i * header.entrySize.toNat)).take 48 =
          fieldBytes (infoFields info)) →
      c.memoryInfo = .ok (some items)) ∧
    ((∃ fault, Malformed.lift c.memoryInfo = .error (.malformed fault)) ↔
      stream.size < 16 ∨ (infoHeader stream).entrySize.toNat < 48 ∨
      ∃ i < (infoHeader stream).count.toNat, stream.size < (infoHeader stream).headerSize.toNat +
        i * (infoHeader stream).entrySize.toNat + 48) ∧
    (16 ≤ stream.size → 48 ≤ (infoHeader stream).entrySize.toNat →
      c.memoryInfo = (memoryInfoFrom stream (infoHeader stream).headerSize.toNat
        (infoHeader stream).entrySize.toNat
        (min (infoHeader stream).count.toNat (stream.size / 48 + 1)) 0).map some) := by
  have hlt : stream.size < UInt64.size := Nat.lt_trans (size_lt_of_stream? hstream) (by decide)
  rw [memoryInfo_eq hstream]
  refine ⟨fun header items hheader hstride hcount hitems => ?_, ?_, fun hsize hstride => ?_⟩
  · rw [memoryInfoEntries_of_packed hlt hheader hstride hcount hitems]
    rfl
  · rw [Malformed.exists_lift_eq_error_iff]
    simp only [map_eq_ok, memoryInfoEntries_eq_ok_iff hlt]
    constructor
    · intro hnone
      by_contra hno
      simp only [not_or, not_exists, not_and, Nat.not_lt] at hno
      obtain ⟨hheader, hstride, hentries⟩ := hno
      exact hnone ⟨_, _, ⟨⟨hheader, hstride, hentries⟩, rfl⟩, rfl⟩
    · rintro h ⟨_, _, ⟨hcomplete, _⟩, _⟩
      rcases h with hheader | hstride | ⟨i, hi, hentry⟩
      · exact absurd hcomplete.header (Nat.not_le.2 hheader)
      · exact absurd hcomplete.stride (Nat.not_le.2 hstride)
      · exact absurd (hcomplete.entries i hi) (Nat.not_le.2 hentry)
  · have hread := recordAt_infoHeader_iff.2 ⟨hsize, rfl⟩
    have hsize : Record.size MemoryInfo = 48 := rfl
    rw [memoryInfoEntries, hread, ok_bind, hsize, if_neg (Nat.not_lt.2 hstride),
      memoryInfoFrom_stops hlt hstride]

def freeInfo : MemoryInfo := ⟨0x1000, 0, 0, 0, 0x1000, 0x10000, 1, 0, 0⟩

def usedInfo : MemoryInfo := ⟨0x2000, 0x2000, 4, 0, 0x3000, 0x1000, 4, 0x20000, 0⟩

/-- Two entries 50 bytes apart after a header of 20 bytes, and bytes after them. -/
def infoBytes (count : UInt64) : List UInt8 :=
  fieldBytes (infoHeaderFields ⟨20, 50, count⟩) ++ [1, 2, 3, 4] ++
    fieldBytes (infoFields freeInfo) ++ [5, 6] ++ fieldBytes (infoFields usedInfo) ++ [7, 8, 9]

/-- A dump whose memory information list has two entries and says that it has `count` of them. -/
def informing (count : UInt64) : Buffer :=
  let header : Header := ⟨signature, 0, 1, 32, 0, 0, 0⟩
  let directory : DirectoryEntry := ⟨StreamKind.memoryInfoList.tag, 121, 44⟩
  Buffer.ofBytes (Record.write header ++ Record.write directory ++ infoBytes count)

theorem memoryInfo_strided_informing :
    (∃ c, parse (informing 2) = .ok c ∧ c.memoryInfo = .ok (some [freeInfo, usedInfo])) ∧
    ∃ c stream, parse (informing 0xffffffffffffffff) = .ok c ∧
      c.stream? StreamKind.memoryInfoList.tag = some stream ∧
      c.memoryInfo = (memoryInfoFrom stream 20 50 3 0).map some ∧
      ∃ fault, Malformed.lift c.memoryInfo = .error (.malformed fault) := by
  constructor
  · have hparse : (parse (informing 2)).toOption.map (fun c =>
        (c.stream? StreamKind.memoryInfoList.tag).map Buffer.bytes) =
        some (some (infoBytes 2)) := by
      decide +kernel
    obtain ⟨c, hc, hbytes⟩ := exists_ok_of_map hparse
    obtain ⟨stream, hstream, hbytes⟩ := Option.map_eq_some_iff.1 hbytes
    refine ⟨c, hc,
      (memoryInfo_strided hstream).1 ⟨20, 50, 2⟩ [freeInfo, usedInfo] ?_ (by decide) rfl ?_⟩
    · rw [hbytes]
      decide +kernel
    · rw [hbytes]
      rintro (_ | _ | i) info hinfo
      · obtain rfl : freeInfo = info := Option.some.inj hinfo
        decide +kernel
      · obtain rfl : usedInfo = info := Option.some.inj hinfo
        decide +kernel
      · simp at hinfo
  · have hparse : (parse (informing 0xffffffffffffffff)).toOption.map (fun c =>
        (c.stream? StreamKind.memoryInfoList.tag).map fun stream =>
          (stream.size, infoHeader stream)) =
        some (some (121, ⟨20, 50, 0xffffffffffffffff⟩)) := by
      decide +kernel
    obtain ⟨c, hc, hseen⟩ := exists_ok_of_map hparse
    obtain ⟨stream, hstream, hseen⟩ := Option.map_eq_some_iff.1 hseen
    obtain ⟨hsize, hheader⟩ := Prod.mk.inj hseen
    obtain ⟨_, hrefused, hends⟩ := memoryInfo_strided hstream
    rw [hsize, hheader] at hrefused hends
    exact ⟨c, stream, hc, hstream, hends (by decide) (by decide),
      hrefused.2 (.inr (.inr ⟨2, by decide, by decide⟩))⟩

end Container
end CrashDump

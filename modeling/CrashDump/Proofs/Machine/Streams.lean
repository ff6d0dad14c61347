import CrashDump.Proofs.ListStreams
import CrashDump.Proofs.Machine.Word

/-!
# Decoding on the machine

The directory and the streams of a dump, decoded with the sums, slices and items that a program
leaves unchecked. Places are found in an index that was made from the directory, and the sums stay
below the size of the dump: a record that was read there bounds the place of the next one.
-/
namespace CrashDump.Machine

/-- The bytes of a slice whose end is a checked sum. -/
def slice? (data : Buffer) (offset length : Nat) : Option Buffer :=
  (checkedAdd? offset length).bind fun stop => get? data offset stop

theorem slice?_eq {data : Buffer} (hsmall : data.size < 2 ^ 63) (offset length : Nat) :
    slice? data offset length = data.slice? offset length := by
  by_cases h : offset + length < UInt64.size
  · rw [slice?, checkedAdd?_eq h]
    exact get?_eq data offset length
  · have hlarge : ¬offset + length ≤ data.size := by
      simp only [UInt64.size] at h
      omega
    simp [slice?, checkedAdd?, h, Buffer.slice?, hlarge]

def indexEntry (data directory : Buffer) (index : DirectoryIndex) (number : Nat) :
    Guarded Malformed DirectoryIndex := do
  let place ← mul number (Record.size DirectoryEntry)
  let entry : DirectoryEntry ← pass (Container.recordAt directory place)
  if (slice? data entry.location.offset.toNat entry.location.size.toNat).isSome then
    return index.add entry
  else
    throw (.streamOutside entry.tag entry.location.offset entry.location.size data.size)

theorem indexEntry_eq {data directory : Buffer} (hsmall : data.size < 2 ^ 63)
    (index : DirectoryIndex) {number : Nat} (hnumber : number < UInt32.size) :
    indexEntry data directory index number =
      pass (Container.indexEntry data directory index number) := by
  have hplace : number * Record.size DirectoryEntry < UInt64.size := by
    simp only [Record.size, UInt64.size, UInt32.size] at hnumber ⊢
    omega
  unfold indexEntry Container.indexEntry
  rw [mul_eq hplace, lift_bind]
  refine pass_bind fun entry _ => ?_
  have hwithin : (slice? data entry.location.offset.toNat entry.location.size.toNat).isSome =
      entry.within data.size := by
    rw [slice?_eq hsmall, Buffer.slice?, DirectoryEntry.within]
    split <;> simp [*]
  rw [hwithin]
  split
  · rfl
  · rfl

def parse (data : Buffer) : Guarded Malformed Container := do
  let header : Header ← pass ((data.readAt 0).mapError fun _ => .headerTooShort data.size)
  if header.signature ≠ Container.signature then throw (.badSignature header.signature)
  else
    match (checkedMul? header.streamCount.toNat (Record.size DirectoryEntry)).bind fun length =>
        slice? data header.directoryOffset.toNat length with
    | none => throw (.directoryTruncated header.streamCount header.directoryOffset)
    | some directory => do
      let index ←
        (List.range header.streamCount.toNat).foldlM (indexEntry data directory) .empty
      return ⟨data, header, index⟩

theorem parse_eq {data : Buffer} (hsmall : data.size < 2 ^ 63) :
    parse data = pass (Container.parse data) := by
  unfold parse Container.parse
  refine pass_bind fun header _ => ?_
  have hcount := header.streamCount.toNat_lt
  have hlength : header.streamCount.toNat * Record.size DirectoryEntry < UInt64.size := by
    simp only [Record.size, UInt64.size]
    omega
  rw [checkedMul?_eq hlength, Option.bind_some, slice?_eq hsmall]
  split
  · rfl
  · cases data.slice? header.directoryOffset.toNat
      (header.streamCount.toNat * Record.size DirectoryEntry) with
    | none => rfl
    | some directory =>
      simp only
      rw [foldlM_eq_pass DirectoryIndex.empty fun index number hnumber =>
        indexEntry_eq hsmall index (Nat.lt_trans (List.mem_range.1 hnumber) hcount)]
      exact pass_bind fun _ _ => rfl

/-- A dump that the machine can hold, whose index points into the directory. -/
structure Holdable (c : Container) : Prop where
  small : c.data.size < 2 ^ 63
  indexed : ∀ tag number, c.index.first.lookup tag = some number → number < c.index.entries.size

theorem holdable_of_parse {data : Buffer} {c : Container} (hsmall : data.size < 2 ^ 63)
    (h : Container.parse data = .ok c) : Holdable c := by
  obtain ⟨_, rfl⟩ := Container.parse_eq_ok_iff.1 h
  refine ⟨hsmall, fun tag number hnumber => ?_⟩
  have hindex : (Container.read data).index.Indexes (Container.entryAt data)
      (Container.streamCount data) := Container.indexes_read
  rw [hindex.first] at hnumber
  rw [hindex.size_entries]
  exact (DirectoryIndex.numberOf?_eq_some_iff.1 hnumber).1

def slice (c : Container) (offset length : Nat) : Except Malformed Buffer :=
  match slice? c.data offset length with
  | some bytes => .ok bytes
  | none => .error (.outside offset length c.data.size)

def located (c : Container) (location : Location) : Except Malformed Buffer :=
  slice c location.offset.toNat location.size.toNat

/-- The stream with a tag, at the place in the directory that the index has for it. -/
def stream? (c : Container) (tag : UInt32) : Except Trap (Option Buffer) :=
  match c.index.first.lookup tag with
  | none => return none
  | some number => do
    let entry ← item c.index.entries.toList number
    let stop ← add entry.location.offset.toNat entry.location.size.toNat
    return get? c.data entry.location.offset.toNat stop

example : stream? ⟨ByteArray.empty, ⟨0, 0, 0, 0, 0, 0, 0⟩, ⟨#[], [(3, 0)], #[]⟩⟩ 3 =
    .error .outside := by decide

variable {c : Container}

theorem slice_eq (hc : Holdable c) (offset length : Nat) :
    slice c offset length = c.slice offset length := by
  rw [slice, slice?_eq hc.small]
  rfl

theorem located_eq (hc : Holdable c) (location : Location) :
    located c location = c.located location := slice_eq hc _ _

theorem stream?_eq (hc : Holdable c) (tag : UInt32) : stream? c tag = .ok (c.stream? tag) := by
  unfold stream? Container.stream? DirectoryIndex.find?
  cases hnumber : c.index.first.lookup tag with
  | none => rfl
  | some number =>
    have hlt := hc.indexed tag number hnumber
    have hentry : c.index.entries[number]? = some c.index.entries[number] :=
      Array.getElem?_eq_getElem hlt
    generalize c.index.entries[number] = entry at hentry
    have hitem : c.index.entries.toList[number]? = some entry := by
      rw [Array.getElem?_toList, hentry]
    have hoffset := entry.location.offset.toNat_lt
    have hlength := entry.location.size.toNat_lt
    have hstop : entry.location.offset.toNat + entry.location.size.toNat < UInt64.size := by
      simp only [UInt64.size]
      omega
    simp only [item_eq hitem, ok_bind, add_eq hstop, Option.bind_some, hentry, get?_eq]
    rfl

theorem size_of_stream? {tag : UInt32} {stream : Buffer} (h : c.stream? tag = some stream) :
    stream.size ≤ c.data.size := by
  obtain ⟨entry, _, hslice⟩ := Option.bind_eq_some_iff.1 h
  have hle := (Buffer.slice?_eq_some_iff.1 hslice).1
  rw [Buffer.size_of_slice? hslice]
  omega

/-- The pairs of bytes in a row. An odd last byte is in none. -/
def pairs : List UInt8 → List (List UInt8)
  | low :: high :: bytes => [low, high] :: pairs bytes
  | _ => []

def units (bytes : List UInt8) : Except Trap (List UInt16) :=
  (pairs bytes).mapM fun pair => do
    let low ← item pair 0
    let high ← item pair 1
    return UInt16.ofNat (LittleEndian.value [low, high])

theorem units_eq (bytes : List UInt8) : units bytes = .ok (Utf16.units bytes) := by
  unfold units
  fun_induction Utf16.units bytes with
  | case1 low high bytes ih =>
    rw [pairs, List.mapM_cons, ih]
    rfl
  | case2 bytes h =>
    rw [pairs]
    · rfl
    · exact h

def string (c : Container) (place : UInt32) : Guarded Malformed String := do
  let size : UInt32 ← pass (Container.recordAt c.data place.toNat)
  let start ← add place.toNat 4
  let bytes ← pass (slice c start size.toNat)
  let units ← units bytes.bytes
  return String.ofList (Container.dropNuls (Utf16.decode units))

theorem string_eq (hc : Holdable c) (place : UInt32) : string c place = pass (c.string place) := by
  have hplace := place.toNat_lt
  have hstart : place.toNat + 4 < UInt64.size := by
    simp only [UInt64.size]
    omega
  unfold string Container.string
  refine pass_bind fun size _ => ?_
  rw [add_eq hstart, lift_bind, Container.offset_eq hstart, slice_eq hc]
  refine pass_bind fun bytes _ => ?_
  rw [units_eq, lift_bind]
  rfl

section Lists

variable {α : Type} [Record α]

def listRecords (kind : StreamKind) (stream : Buffer) : Guarded Malformed (List α) := do
  let count : UInt32 ← pass (Container.recordAt stream 0)
  match checkedMul? count.toNat (Record.size α) with
  | none => throw .offsetOverflow
  | some needed => do
    let padded ← add needed 8
    let start := if stream.size = padded then 8 else 4
    let stop ← add start needed
    if stream.size < stop then
      throw (.listTooShort kind stream.size count.toNat (Record.size α))
    else
      (List.range count.toNat).mapM fun index => do
        let skipped ← mul index (Record.size α)
        let place ← add start skipped
        pass (Container.recordAt stream place)

theorem listRecords_eq (kind : StreamKind) (stream : Buffer) (hrecord : Record.size α ≤ 1024) :
    (listRecords kind stream : Guarded Malformed (List α)) =
      pass (Container.listRecords kind stream) := by
  unfold listRecords Container.listRecords
  refine pass_bind fun count _ => ?_
  have hneeded : count.toNat * Record.size α < UInt64.size := by
    have hlt := Container.listEnd_lt hrecord count (Nat.zero_le 8)
    omega
  have hpadded : count.toNat * Record.size α + 8 < UInt64.size := by
    have hlt := Container.listEnd_lt hrecord count (Nat.le_refl 8)
    omega
  simp only [checkedMul?_eq hneeded, Container.offset_eq hneeded, ok_bind,
    Container.offset_eq hpadded, add_eq hpadded, lift_bind, Container.listStart]
  generalize hstart : (if stream.size = count.toNat * Record.size α + 8 then 8 else 4) = start
  have hstart : start ≤ 8 := hstart ▸ Container.listStart_le _ _
  have hstop := Container.listEnd_lt hrecord count hstart
  simp only [add_eq hstop, lift_bind, Container.offset_eq hstop, ok_bind]
  split
  · rfl
  · next hlong =>
    refine mapM_eq_pass fun index hindex => ?_
    have hindex : (index + 1) * Record.size α ≤ count.toNat * Record.size α :=
      Nat.mul_le_mul_right _ (List.mem_range.1 hindex)
    rw [Nat.succ_mul] at hindex
    have hskipped : index * Record.size α < UInt64.size := by omega
    have hplace : start + index * Record.size α < UInt64.size := by omega
    rw [mul_eq hskipped, lift_bind, add_eq hplace, lift_bind,
      Container.recordAt_extract (by omega) (by omega)]

def list (c : Container) (kind : StreamKind) : Guarded Malformed (List α) := do
  match ← stream? c kind.tag with
  | none => return []
  | some stream => listRecords kind stream

theorem list_eq (hc : Holdable c) (kind : StreamKind) (hrecord : Record.size α ≤ 1024) :
    (list c kind : Guarded Malformed (List α)) = pass (c.list kind) := by
  unfold list Container.list
  rw [stream?_eq hc, lift_bind]
  cases c.stream? kind.tag with
  | none => rfl
  | some stream => exact listRecords_eq kind stream hrecord

end Lists

def threads (c : Container) : Guarded Malformed (List ThreadRecord) := list c .threadList

def modules (c : Container) : Guarded Malformed (List ModuleRecord) := list c .moduleList

theorem threads_eq (hc : Holdable c) : threads c = pass c.threads := list_eq hc _ (by decide)

theorem modules_eq (hc : Holdable c) : modules c = pass c.modules := list_eq hc _ (by decide)

def memoryRecord (c : Container) (descriptor : MemoryDescriptor) :
    Except Malformed MemoryRecord := do
  let range ← Container.intervalOf ⟨descriptor.start⟩ descriptor.location.size.toNat
  let _ ← located c descriptor.location
  return ⟨range, descriptor.location.offset.toNat⟩

/-- The captured intervals of `remaining` descriptors from number `index` on, the bytes of the first
of them at `dataOffset` in the dump. -/
def longMemoryRecords (c : Container) (stream : Buffer) :
    Nat → Nat → Nat → Guarded Malformed (List MemoryRecord)
  | 0, _, _ => return []
  | remaining + 1, index, dataOffset => do
    let skipped ← mul index (Record.size LongMemoryDescriptor)
    let place ← add (Record.size LongMemoryHeader) skipped
    let descriptor : LongMemoryDescriptor ← pass (Container.recordAt stream place)
    let range ← pass (Container.intervalOf ⟨descriptor.start⟩ descriptor.size.toNat)
    let _ ← pass (slice c dataOffset descriptor.size.toNat)
    let next ← add dataOffset descriptor.size.toNat
    let rest ← longMemoryRecords c stream remaining (index + 1) next
    return ⟨range, dataOffset⟩ :: rest

theorem le_size_of_recordAt {α : Type} [Record α] {data : Buffer} {offset : Nat} {a : α}
    (h : Container.recordAt data offset = .ok a) : offset ≤ data.size := by
  have hread : data.readAt offset = .ok a := mapError_eq_ok.1 h
  unfold Buffer.readAt at hread
  split at hread
  · simp at hread
  · omega

/-- The descriptors before number `index` are inside the stream, so its place is a sum that fits.
The bytes that were there bound the offset of those that follow. -/
theorem longMemoryRecords_eq (hc : Holdable c) {stream : Buffer}
    (hstream : stream.size ≤ c.data.size)
    {remaining index dataOffset : Nat} (hindex : 16 * index ≤ stream.size) :
    longMemoryRecords c stream remaining index dataOffset =
      pass (c.longMemoryRecords stream remaining (16 + 16 * index) dataOffset) := by
  have hsmall := hc.small
  induction remaining generalizing index dataOffset with
  | zero => rfl
  | succ remaining ih =>
    have hskipped : index * Record.size LongMemoryDescriptor < UInt64.size := by
      simp only [Record.size, UInt64.size]
      omega
    have hplace : Record.size LongMemoryHeader + index * Record.size LongMemoryDescriptor =
        16 + 16 * index := by
      simp only [Record.size]
      omega
    have hfits : 16 + 16 * index < UInt64.size := by
      simp only [UInt64.size]
      omega
    unfold longMemoryRecords Container.longMemoryRecords
    rw [mul_eq hskipped, lift_bind, add_eq (hplace ▸ hfits), lift_bind, hplace]
    refine pass_bind fun descriptor hdescriptor => ?_
    refine pass_bind fun range _ => ?_
    rw [slice_eq hc]
    refine pass_bind fun bytes hbytes => ?_
    have hread := le_size_of_recordAt hdescriptor
    have hslice := (Buffer.slice?_eq_some_iff.1 (Container.slice_eq_ok_iff.1 hbytes)).1
    have hnext : dataOffset + descriptor.size.toNat < UInt64.size := by
      simp only [UInt64.size]
      omega
    have hafter : 16 + 16 * index + Record.size LongMemoryDescriptor = 16 + 16 * (index + 1) := rfl
    have hafterFits : 16 + 16 * (index + 1) < UInt64.size := by
      simp only [UInt64.size]
      omega
    rw [hafter, Container.offset_eq hafterFits, Container.offset_eq hnext, add_eq hnext, lift_bind,
      ih (by omega)]
    exact pass_bind fun _ _ => rfl

def memoryRecords (c : Container) : Guarded Malformed (List MemoryRecord) := do
  let descriptors : List MemoryDescriptor ← list c .memoryList
  let short ← pass (descriptors.mapM (memoryRecord c))
  match ← stream? c StreamKind.memory64List.tag with
  | none => return short
  | some stream => do
    let header : LongMemoryHeader ← pass (Container.recordAt stream 0)
    let long ← longMemoryRecords c stream header.count.toNat 0 header.dataOffset.toNat
    return short ++ long

theorem memoryRecord_eq (hc : Holdable c) : memoryRecord c = c.memoryRecord := by
  funext descriptor
  unfold memoryRecord Container.memoryRecord
  rw [located_eq hc]
  rfl

theorem memoryRecords_eq (hc : Holdable c) : memoryRecords c = pass c.memoryRecords := by
  unfold memoryRecords Container.memoryRecords Container.longMemory
  rw [list_eq hc _ (by decide)]
  refine pass_bind fun descriptors _ => ?_
  rw [memoryRecord_eq hc]
  refine pass_bind fun short _ => ?_
  rw [stream?_eq hc, lift_bind]
  cases hstream : c.stream? StreamKind.memory64List.tag with
  | none =>
    simp only [ok_bind, List.append_nil]
    rfl
  | some stream =>
    simp only [bind_assoc]
    refine pass_bind fun header _ => ?_
    rw [longMemoryRecords_eq hc (size_of_stream? hstream) (Nat.zero_le _)]
    exact pass_bind fun _ _ => rfl

/-- `remaining` entries of a memory information stream from number `index` on, at checked places. -/
def memoryInfoFrom (stream : Buffer) (headerSize entrySize : Nat) :
    Nat → Nat → Except Malformed (List MemoryInfo)
  | 0, _ => return []
  | remaining + 1, index =>
    match (checkedMul? index entrySize).bind fun skipped => checkedAdd? skipped headerSize with
    | none => throw .infoListTooLong
    | some place => do
      let info : MemoryInfo ← Container.recordAt stream place
      let rest ← memoryInfoFrom stream headerSize entrySize remaining (index + 1)
      return info :: rest

theorem memoryInfoFrom_eq (stream : Buffer) (headerSize entrySize remaining index : Nat) :
    memoryInfoFrom stream headerSize entrySize remaining index =
      Container.memoryInfoFrom stream headerSize entrySize remaining index := by
  induction remaining generalizing index with
  | zero => rfl
  | succ remaining ih =>
    unfold memoryInfoFrom Container.memoryInfoFrom
    by_cases h : index * entrySize + headerSize < UInt64.size
    · have hskipped : index * entrySize < UInt64.size := by omega
      rw [checkedMul?_eq hskipped, Option.bind_some, checkedAdd?_eq h, if_pos h]
      simp only [ih]
      rfl
    · have hnone : ((checkedMul? index entrySize).bind fun skipped =>
          checkedAdd? skipped headerSize) = none := by
        unfold checkedMul?
        split
        · exact if_neg h
        · rfl
      rw [hnone, if_neg h]
      rfl

def memoryInfoEntries (stream : Buffer) : Except Malformed (List MemoryInfo) := do
  let header : MemoryInfoHeader ← Container.recordAt stream 0
  if header.entrySize.toNat < Record.size MemoryInfo then
    throw (.infoEntriesTooSmall header.entrySize.toNat)
  else
    memoryInfoFrom stream header.headerSize.toNat header.entrySize.toNat header.count.toNat 0

theorem memoryInfoEntries_eq (stream : Buffer) :
    memoryInfoEntries stream = Container.memoryInfoEntries stream := by
  unfold memoryInfoEntries Container.memoryInfoEntries
  simp only [memoryInfoFrom_eq]
  rfl

def memoryInfo (c : Container) : Guarded Malformed (Option (List MemoryInfo)) := do
  match ← stream? c StreamKind.memoryInfoList.tag with
  | none => return none
  | some stream => pass ((memoryInfoEntries stream).map some)

def systemInfo (c : Container) : Guarded Malformed (Option SystemInfo) := do
  match ← stream? c StreamKind.systemInfo.tag with
  | none => return none
  | some stream => pass ((Container.recordAt stream 0).map some)

def exception (c : Container) : Guarded Malformed (Option ExceptionStream) := do
  match ← stream? c StreamKind.exception.tag with
  | none => return none
  | some stream => pass ((Container.recordAt stream 0).map some)

def miscInfo? (c : Container) : Except Trap (Option MiscInfo) := do
  let stream ← stream? c StreamKind.miscInfo.tag
  return stream.bind fun stream => (Container.recordAt stream 0).toOption

def text? (c : Container) (tag : UInt32) : Except Trap (Option String) := do
  let stream ← stream? c tag
  return stream.map fun stream => Utf8.decode stream.bytes

theorem memoryInfo_eq (hc : Holdable c) : memoryInfo c = pass c.memoryInfo := by
  unfold memoryInfo Container.memoryInfo
  rw [stream?_eq hc, lift_bind]
  cases c.stream? StreamKind.memoryInfoList.tag with
  | none => rfl
  | some stream =>
    simp only [memoryInfoEntries_eq]

theorem systemInfo_eq (hc : Holdable c) : systemInfo c = pass c.systemInfo := by
  unfold systemInfo Container.systemInfo
  rw [stream?_eq hc, lift_bind]
  cases c.stream? StreamKind.systemInfo.tag with
  | none => rfl
  | some stream => rfl

theorem exception_eq (hc : Holdable c) : exception c = pass c.exception := by
  unfold exception Container.exception
  rw [stream?_eq hc, lift_bind]
  cases c.stream? StreamKind.exception.tag with
  | none => rfl
  | some stream => rfl

theorem miscInfo?_eq (hc : Holdable c) : miscInfo? c = .ok c.miscInfo? := by
  rw [miscInfo?, stream?_eq hc, ok_bind]
  rfl

theorem text?_eq (hc : Holdable c) (tag : UInt32) : text? c tag = .ok (c.text? tag) := by
  rw [text?, stream?_eq hc, ok_bind]
  rfl

end CrashDump.Machine

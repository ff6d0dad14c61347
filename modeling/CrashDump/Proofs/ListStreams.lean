import CrashDump.Container.Streams
import CrashDump.Proofs.DirectoryScan

/-!
# List streams

A list stream holds a count, padding that its size tells of, and records one after another. What is
written like that is read back, and a stream that is too short for its count is refused.
-/
namespace CrashDump

namespace Container

variable {α : Type} [Record α] {c : Container} {kind : StreamKind} {stream : Buffer}
  {padding front : List UInt8} {items : List α}

theorem offset_eq {n : Nat} (h : n < UInt64.size) : offset n = .ok n := if_pos h

theorem offset_eq_ok_iff {n m : Nat} : offset n = .ok m ↔ n < UInt64.size ∧ n = m := by
  unfold offset
  split
  · next h => simp [h]
  · next h => simp [h]

theorem recordAt_eq_ok_iff {size place : Nat} {a : α} {f : List UInt8 → α}
    (h : Reader.Takes (Record.read : Reader α) size f) (hrecord : Record.size α = size) :
    recordAt stream place = .ok a ↔ place + size ≤ stream.size ∧
      f ((stream.bytes.drop place).take size) = a :=
  mapError_eq_ok.trans (Buffer.readAt_eq_ok_iff h hrecord)

/-- A record inside a slice is the record at that place of the whole. -/
theorem recordAt_extract {data : Buffer} {start stop place : Nat}
    (h : start + place + Record.size α ≤ stop) (hstop : stop ≤ data.size) :
    (recordAt (data.extract start stop) place : Except Malformed α) =
      recordAt data (start + place) := by
  have hinside : ¬(data.extract start stop).size < place := by
    rw [ByteArray.size_extract]
    omega
  have hplace : ¬data.size < start + place := by omega
  have hend : min (start + (place + Record.size α)) stop = start + place + Record.size α := by
    omega
  unfold recordAt Buffer.readAt
  rw [if_neg hinside, if_neg hplace, ByteArray.extract_extract, hend]

/-- How many records a list stream says it holds. -/
def listCount (stream : Buffer) : Nat := (Reader.word32 stream.bytes).toNat

theorem recordAt_count_iff {count : UInt32} :
    recordAt stream 0 = .ok count ↔ 4 ≤ stream.size ∧ Reader.word32 stream.bytes = count := by
  rw [recordAt_eq_ok_iff Reader.takes_word32 rfl, List.drop_zero,
    Reader.word32_take (Nat.le_refl 4), Nat.zero_add]

/-- The padding is looked for only where it makes no stream too short. -/
theorem lt_listStart_iff {size needed : Nat} :
    size < listStart size needed + needed ↔ size < 4 + needed := by
  unfold listStart
  split
  · omega
  · rfl

theorem listStart_le (size needed : Nat) : listStart size needed ≤ 8 := by
  unfold listStart
  split
  · exact Nat.le_refl 8
  · decide

/-- No count of records needs more bytes than an offset can say. -/
theorem listEnd_lt (hrecord : Record.size α ≤ 1024) (count : UInt32) {start : Nat}
    (hstart : start ≤ 8) : start + count.toNat * Record.size α < UInt64.size := by
  have hle : count.toNat * Record.size α ≤ 2 ^ 32 * 1024 :=
    Nat.mul_le_mul (Nat.le_of_lt count.toNat_lt) hrecord
  simp only [UInt64.size]
  omega

/-- A list stream has the records that it says it has, or is too short for them. -/
theorem listRecords_eq (hrecord : Record.size α ≤ 1024) (hcount : 4 ≤ stream.size) :
    (listRecords kind stream : Except Malformed (List α)) =
      if stream.size < 4 + listCount stream * Record.size α then
        .error (.listTooShort kind stream.size (listCount stream) (Record.size α))
      else (List.range (listCount stream)).mapM fun i =>
        recordAt stream (listStart stream.size (listCount stream * Record.size α) +
          i * Record.size α) := by
  have hfirst : recordAt stream 0 = .ok (Reader.word32 stream.bytes) :=
    recordAt_count_iff.2 ⟨hcount, rfl⟩
  have hfits : ∀ start ≤ 8, start + listCount stream * Record.size α < UInt64.size :=
    fun start hstart => listEnd_lt hrecord (Reader.word32 stream.bytes) hstart
  have hneeded : listCount stream * Record.size α < UInt64.size := by
    have hlt := hfits 0 (Nat.zero_le 8)
    omega
  have hpadded : listCount stream * Record.size α + 8 < UInt64.size := by
    have hlt := hfits 8 (Nat.le_refl 8)
    omega
  have hstop := hfits _ (listStart_le stream.size (listCount stream * Record.size α))
  have hword : (Reader.word32 stream.bytes).toNat = listCount stream := rfl
  simp only [listRecords, hfirst, ok_bind, hword, offset_eq hneeded, offset_eq hpadded,
    offset_eq hstop, lt_listStart_iff]
  split
  · rfl
  · next hlong =>
    rw [← lt_listStart_iff] at hlong
    refine mapM_congr fun i hi => ?_
    have hi : (i + 1) * Record.size α ≤ listCount stream * Record.size α :=
      Nat.mul_le_mul_right _ (List.mem_range.1 hi)
    rw [Nat.succ_mul] at hi
    exact recordAt_extract (by omega) (by omega)

theorem listRecords_of_short (hrecord : Record.size α ≤ 1024)
    (h : stream.size < 4 + listCount stream * Record.size α) :
    ∃ fault, (listRecords kind stream : Except Malformed (List α)) = .error fault := by
  by_cases hcount : 4 ≤ stream.size
  · rw [listRecords_eq hrecord hcount, if_pos h]
    exact ⟨_, rfl⟩
  · cases hrecords : (listRecords kind stream : Except Malformed (List α)) with
    | error fault => exact ⟨fault, rfl⟩
    | ok items =>
      obtain ⟨count, hfirst, _⟩ := bind_eq_ok.1 hrecords
      exact absurd (recordAt_count_iff.1 hfirst).1 hcount

variable [LawfulRecord α]

/-- A record that was written into a stream is read where it is. -/
theorem recordAt_of_write {back : List UInt8} {a : α}
    (h : stream.bytes = front ++ (Record.write a ++ back)) :
    recordAt stream front.length = .ok a := by
  have hsize : front.length ≤ stream.size := by
    rw [← Buffer.length_bytes, h, List.length_append]
    exact Nat.le_add_right _ _
  have hbytes : Buffer.bytes (stream.extract front.length (front.length + Record.size α)) =
      Record.write a ++ [] := by
    rw [Buffer.bytes_extract, h, List.drop_left, Nat.add_sub_cancel_left,
      List.take_left' (LawfulRecord.length_write a), List.append_nil]
  have hread : (Record.read : Reader α).run' (Record.write a ++ []) = .ok a := by
    change ((Record.read : Reader α) (Record.write a ++ [])).map Prod.fst = _
    rw [LawfulRecord.read_write]
    rfl
  unfold recordAt Buffer.readAt
  rw [if_neg (Nat.not_lt.2 hsize), hbytes, hread]
  rfl

/-- A record whose bytes stand at a place is read from there. -/
theorem recordAt_of_take {place : Nat} {a : α} (hsize : 0 < Record.size α)
    (h : (stream.bytes.drop place).take (Record.size α) = Record.write a) :
    recordAt stream place = .ok a := by
  have hlength := congrArg List.length h
  rw [List.length_take, List.length_drop, LawfulRecord.length_write] at hlength
  have hfront : (stream.bytes.take place).length = place := by
    rw [List.length_take]
    omega
  have hsplit : stream.bytes = stream.bytes.take place ++
      (Record.write a ++ (stream.bytes.drop place).drop (Record.size α)) := by
    rw [← h, List.take_append_drop, List.take_append_drop]
  rw [← hfront]
  exact recordAt_of_write hsplit

/-- Records that were written one after another are read so. -/
theorem mapM_recordAt_of_write (h : stream.bytes = front ++ items.flatMap Record.write) :
    ((List.range items.length).mapM fun i =>
      recordAt stream (front.length + i * Record.size α)) = .ok items := by
  induction items generalizing front with
  | nil => rfl
  | cons a rest ih =>
    rw [List.flatMap_cons] at h
    have hfirst := recordAt_of_write h
    have hafter : stream.bytes = front ++ Record.write a ++ rest.flatMap Record.write := by
      rw [h, List.append_assoc]
    have hrest := ih hafter
    rw [List.length_append, LawfulRecord.length_write] at hrest
    rw [List.length_cons, List.range_succ_eq_map, List.mapM_cons, Nat.zero_mul, Nat.add_zero,
      hfirst, ok_bind, List.mapM_map]
    have hplace : ∀ i, front.length + i.succ * Record.size α =
        front.length + Record.size α + i * Record.size α := by
      intro i
      rw [Nat.succ_mul]
      omega
    simp only [Function.comp_def, hplace, hrest]
    rfl

omit [Record α] [LawfulRecord α] in
theorem size_lt_of_stream? {tag : UInt32} (h : c.stream? tag = some stream) :
    stream.size < 2 ^ 32 := by
  obtain ⟨entry, _, hslice⟩ := Option.bind_eq_some_iff.1 h
  rw [Buffer.size_of_slice? hslice]
  exact entry.location.size.toNat_lt

/-- A list stream with its count, the padding and the bytes of its records. -/
def listBytes (padding : List UInt8) (records : List (List UInt8)) : List UInt8 :=
  LittleEndian.bytes 4 records.length ++ (padding ++ records.flatten)

omit [Record α] [LawfulRecord α] in
theorem listCount_of_bytes {n : Nat} {rest : List UInt8} (hn : n < 2 ^ 32)
    (h : stream.bytes = LittleEndian.bytes 4 n ++ rest) : listCount stream = n := by
  have hlength := LittleEndian.length_bytes 4 n
  have hword : Reader.word32 stream.bytes = UInt32.ofNat n := by
    rw [Reader.word32_eq_iff (by rw [h, List.length_append]; omega), h, List.take_left' hlength,
      UInt32.toNat_ofNat', Nat.mod_eq_of_lt hn]
  rw [listCount, hword, UInt32.toNat_ofNat', Nat.mod_eq_of_lt hn]

theorem length_flatMap_write (items : List α) :
    (items.flatMap Record.write).length = items.length * Record.size α := by
  simp [List.length_flatMap, LawfulRecord.length_write]

/-- A list that was written is read back, whichever padding it has. -/
theorem list_of_listBytes (hrecord : 0 < Record.size α ∧ Record.size α ≤ 1024)
    (hp : padding.length = 0 ∨ padding.length = 4)
    (h : (c.stream? kind.tag).map Buffer.bytes =
      some (listBytes padding (items.map Record.write))) :
    c.list kind = .ok items := by
  obtain ⟨stream, hstream, hbytes⟩ := Option.map_eq_some_iff.1 h
  rw [listBytes, List.length_map, ← List.flatMap_def] at hbytes
  have hlt := size_lt_of_stream? hstream
  have hsize : stream.size = 4 + padding.length + items.length * Record.size α := by
    rw [← Buffer.length_bytes, hbytes, List.length_append, List.length_append,
      LittleEndian.length_bytes, length_flatMap_write, Nat.add_assoc]
  have hfew : items.length ≤ items.length * Record.size α := Nat.le_mul_of_pos_right _ hrecord.1
  have hcount : listCount stream = items.length := listCount_of_bytes (by omega) hbytes
  have hstart : listStart stream.size (listCount stream * Record.size α) = 4 + padding.length := by
    rw [hsize, hcount, listStart]
    rcases hp with hp | hp
    · rw [hp, if_neg (by omega)]
    · rw [hp, if_pos (by omega)]
  have hlong : ¬stream.size < 4 + listCount stream * Record.size α := by
    rw [hcount]
    omega
  rw [list, hstream]
  change listRecords kind stream = _
  rw [listRecords_eq hrecord.2 (by omega), if_neg hlong, hstart, hcount]
  have hfront : 4 + padding.length =
      (LittleEndian.bytes 4 items.length ++ padding).length := by
    rw [List.length_append, LittleEndian.length_bytes]
  rw [hfront]
  exact mapM_recordAt_of_write (by rw [hbytes, List.append_assoc])

omit [LawfulRecord α] in
theorem list_of_short (hrecord : Record.size α ≤ 1024) (hstream : c.stream? kind.tag = some stream)
    (h : stream.size < 4 + listCount stream * Record.size α) :
    ∃ fault, Malformed.lift (c.list kind : Except Malformed (List α)) =
      .error (.malformed fault) := by
  obtain ⟨fault, hfault⟩ : ∃ fault,
      (listRecords kind stream : Except Malformed (List α)) = .error fault :=
    listRecords_of_short hrecord h
  refine ⟨fault, ?_⟩
  rw [list, hstream]
  change Malformed.lift (listRecords kind stream) = _
  rw [hfault]
  rfl

/-- Numbers in little-endian bytes, each with its width. -/
def fieldBytes (fields : List (Nat × Nat)) : List UInt8 :=
  fields.flatMap fun field => LittleEndian.bytes field.1 field.2

def descriptorFields (r : MemoryDescriptor) : List (Nat × Nat) :=
  [(8, r.start.toNat), (4, r.location.size.toNat), (4, r.location.offset.toNat)]

/-- The fields of a thread in file order: what it is, its stack, and where its registers are. -/
def threadFields (r : ThreadRecord) : List (Nat × Nat) :=
  [(4, r.id.toNat), (4, r.suspendCount.toNat), (4, r.priorityClass.toNat), (4, r.priority.toNat),
    (8, r.teb.toNat)] ++ descriptorFields r.stack ++
  [(4, r.context.size.toNat), (4, r.context.offset.toNat)]

def versionFields (r : VersionInfo) : List (Nat × Nat) :=
  [r.signature, r.structVersion, r.fileVersionHigh, r.fileVersionLow, r.productVersionHigh,
    r.productVersionLow, r.flagsMask, r.flags, r.system, r.type, r.subtype, r.dateHigh,
    r.dateLow].map fun word => (4, word.toNat)

/-- The fields of a module in file order. -/
def moduleFields (r : ModuleRecord) : List (Nat × Nat) :=
  [(8, r.base.toNat), (4, r.size.toNat), (4, r.checksum.toNat), (4, r.timeStamp.toNat),
    (4, r.nameOffset.toNat)] ++ versionFields r.version ++
  [(4, r.codeView.size.toNat), (4, r.codeView.offset.toNat), (4, r.misc.size.toNat),
    (4, r.misc.offset.toNat), (8, r.reserved0.toNat), (8, r.reserved1.toNat)]

theorem write_descriptor (r : MemoryDescriptor) :
    Record.write r = fieldBytes (descriptorFields r) := by
  simp [fieldBytes, descriptorFields, Record.write, MemoryDescriptor.write, Location.write]

theorem write_thread (r : ThreadRecord) : Record.write r = fieldBytes (threadFields r) := by
  simp [fieldBytes, threadFields, descriptorFields, Record.write, ThreadRecord.write,
    MemoryDescriptor.write, Location.write]

theorem write_module (r : ModuleRecord) : Record.write r = fieldBytes (moduleFields r) := by
  simp [fieldBytes, moduleFields, versionFields, Record.write, ModuleRecord.write,
    VersionInfo.write, Location.write]

/-- Lists of threads, of modules and of captured memory are read back as they were written, with
padding or without; a stream that is too short for its count is refused as malformed. -/
theorem lists_round_trip (c : Container) :
    (∀ padding : List UInt8, padding.length = 0 ∨ padding.length = 4 →
      (∀ items : List ThreadRecord,
        (c.stream? StreamKind.threadList.tag).map Buffer.bytes =
          some (listBytes padding (items.map fun r => fieldBytes (threadFields r))) →
        c.threads = .ok items) ∧
      (∀ items : List ModuleRecord,
        (c.stream? StreamKind.moduleList.tag).map Buffer.bytes =
          some (listBytes padding (items.map fun r => fieldBytes (moduleFields r))) →
        c.modules = .ok items) ∧
      ∀ items : List MemoryDescriptor,
        (c.stream? StreamKind.memoryList.tag).map Buffer.bytes =
          some (listBytes padding (items.map fun r => fieldBytes (descriptorFields r))) →
        c.list .memoryList = .ok items) ∧
    (∀ stream, c.stream? StreamKind.threadList.tag = some stream →
      stream.size < 4 + listCount stream * 48 →
      ∃ fault, Malformed.lift c.threads = .error (.malformed fault)) ∧
    (∀ stream, c.stream? StreamKind.moduleList.tag = some stream →
      stream.size < 4 + listCount stream * 108 →
      ∃ fault, Malformed.lift c.modules = .error (.malformed fault)) ∧
    ∀ stream, c.stream? StreamKind.memoryList.tag = some stream →
      stream.size < 4 + listCount stream * 16 →
      ∃ fault, Malformed.lift (c.list .memoryList : Except Malformed (List MemoryDescriptor)) =
        .error (.malformed fault) := by
  refine ⟨fun padding hp => ⟨fun items h => ?_, fun items h => ?_, fun items h => ?_⟩,
    fun stream hstream h => ?_, fun stream hstream h => ?_, fun stream hstream h => ?_⟩
  · simp only [← write_thread] at h
    exact list_of_listBytes (by decide) hp h
  · simp only [← write_module] at h
    exact list_of_listBytes (by decide) hp h
  · simp only [← write_descriptor] at h
    exact list_of_listBytes (by decide) hp h
  · exact list_of_short (α := ThreadRecord) (by decide) hstream h
  · exact list_of_short (α := ModuleRecord) (by decide) hstream h
  · exact list_of_short (by decide) hstream h

def calledThread : ThreadRecord := ⟨7, 0, 0x20, 0, 0x7ff000, ⟨0x8000, ⟨16, 300⟩⟩, ⟨1232, 400⟩⟩

/-- A dump with a thread after padding, no modules, and captured memory that is cut off. -/
def listed : Buffer :=
  let header : Header := ⟨signature, 0, 3, 32, 0, 0, 0⟩
  let directory : List DirectoryEntry := [⟨StreamKind.threadList.tag, 56, 68⟩,
    ⟨StreamKind.moduleList.tag, 4, 124⟩, ⟨StreamKind.memoryList.tag, 12, 128⟩]
  Buffer.ofBytes (Record.write header ++ directory.flatMap Record.write ++
    listBytes [1, 2, 3, 4] [fieldBytes (threadFields calledThread)] ++ listBytes [] [] ++
    Record.write (1 : UInt32) ++ Record.write (0x9000 : UInt64))

theorem lists_round_trip_listed : ∃ c, parse listed = .ok c ∧ c.threads = .ok [calledThread] ∧
    c.modules = .ok [] ∧ ∃ fault, Malformed.lift
      (c.list .memoryList : Except Malformed (List MemoryDescriptor)) =
        .error (.malformed fault) := by
  have hparse : (parse listed).toOption.map (fun c =>
      ((c.stream? StreamKind.threadList.tag).map Buffer.bytes,
        (c.stream? StreamKind.moduleList.tag).map Buffer.bytes,
        (c.stream? StreamKind.memoryList.tag).map fun s => (s.size, listCount s))) =
      some (some (listBytes [1, 2, 3, 4] [fieldBytes (threadFields calledThread)]),
        some (listBytes [] []), some (12, 1)) := by
    decide +kernel
  obtain ⟨c, hc, hstreams⟩ := exists_ok_of_map hparse
  obtain ⟨hthreads, hstreams⟩ := Prod.mk.inj hstreams
  obtain ⟨hmodules, hmemory⟩ := Prod.mk.inj hstreams
  obtain ⟨stream, hstream, hshort⟩ := Option.map_eq_some_iff.1 hmemory
  obtain ⟨hsize, hcount⟩ := Prod.mk.inj hshort
  obtain ⟨hround, _, _, hrefused⟩ := lists_round_trip c
  refine ⟨c, hc, (hround [1, 2, 3, 4] (.inr rfl)).1 [calledThread] hthreads,
    (hround [] (.inl rfl)).2.1 [] hmodules,
    hrefused stream hstream ?_⟩
  rw [hsize, hcount]
  decide

end Container
end CrashDump

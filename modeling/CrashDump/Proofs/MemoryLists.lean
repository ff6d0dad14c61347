import CrashDump.Proofs.ListStreams

/-!
# The two lists of captured memory

The records of captured memory are those of the short list, each of which says where its bytes are,
and then those of the long list, whose bytes follow one another from a place that they share. They
are refused if a list is cut off or a descriptor is of memory that cannot be.
-/
namespace CrashDump

namespace Reader

theorem takes_memoryDescriptor : Takes (Record.read : Reader MemoryDescriptor) 16 fun bytes =>
    ⟨UInt64.ofNat (number 8 bytes), word32 (bytes.drop 8), word32 (bytes.drop 12)⟩ := by
  have h := takes_word64.bind fun start => takes_location.bind fun location =>
    takes_pure (MemoryDescriptor.mk start location)
  simp only [List.drop_drop] at h
  exact h

theorem takes_longMemoryDescriptor :
    Takes (Record.read : Reader LongMemoryDescriptor) 16 fun bytes =>
      ⟨UInt64.ofNat (number 8 bytes), UInt64.ofNat (number 8 (bytes.drop 8))⟩ :=
  takes_word64.bind fun _ => takes_word64.bind fun _ => takes_pure _

theorem takes_longMemoryHeader : Takes (Record.read : Reader LongMemoryHeader) 16 fun bytes =>
    ⟨UInt64.ofNat (number 8 bytes), UInt64.ofNat (number 8 (bytes.drop 8))⟩ :=
  takes_word64.bind fun _ => takes_word64.bind fun _ => takes_pure _

end Reader

/-- What a descriptor says of captured memory: where it starts, how many bytes it has, and where
they are in the dump. -/
structure Saved where
  start : Address
  size : Nat
  offset : Nat

namespace Saved

/-- The memory ends inside the address space, and its bytes are inside a dump of `total` bytes. -/
structure Fits (s : Saved) (total : Nat) : Prop where
  ends : s.start.toNat + s.size < UInt64.size
  inside : s.offset + s.size ≤ total

def record (s : Saved) : MemoryRecord :=
  ⟨⟨s.start, .ofNat (s.start.toNat + s.size)⟩, s.offset⟩

variable {s : Saved} {total : Nat}

theorem Fits.stop_record (h : s.Fits total) :
    s.record.range.stop.toNat = s.start.toNat + s.size :=
  UInt64.toNat_ofNat_of_lt h.ends

end Saved

namespace Container

variable {c : Container} {stream : Buffer} {place : Nat}

/-- The number in eight bytes at an offset. -/
def wideField (data : Buffer) (offset : Nat) : UInt64 :=
  UInt64.ofNat (Reader.number 8 (data.bytes.drop offset))

theorem intervalOf_eq_ok_iff {start : Address} {size : Nat} {range : Interval} :
    intervalOf start size = .ok range ↔ start.toNat + size < UInt64.size ∧
      ⟨start, .ofNat (start.toNat + size)⟩ = range := by
  unfold intervalOf Interval.ofLength? Address.add?
  split_ifs with h
  · simp [h]
  · simp [h]

def descriptorAt (stream : Buffer) (place : Nat) : MemoryDescriptor :=
  ⟨wideField stream place, ⟨field stream (place + 8), field stream (place + 12)⟩⟩

theorem recordAt_descriptor_iff {descriptor : MemoryDescriptor} :
    recordAt stream place = .ok descriptor ↔
      place + 16 ≤ stream.size ∧ descriptorAt stream place = descriptor := by
  rw [recordAt_eq_ok_iff Reader.takes_memoryDescriptor rfl, descriptorAt]
  simp (disch := omega) only [field, wideField, List.drop_take, Reader.word32_take,
    Reader.number_take, List.drop_drop]

def savedOf (descriptor : MemoryDescriptor) : Saved :=
  ⟨⟨descriptor.start⟩, descriptor.location.size.toNat, descriptor.location.offset.toNat⟩

theorem memoryRecord_eq_ok_iff {descriptor : MemoryDescriptor} {record : MemoryRecord} :
    c.memoryRecord descriptor = .ok record ↔
      (savedOf descriptor).Fits c.data.size ∧ (savedOf descriptor).record = record := by
  unfold memoryRecord
  simp only [bind_eq_ok, intervalOf_eq_ok_iff, located_eq_ok_iff, Buffer.slice?_eq_some_iff]
  constructor
  · rintro ⟨_, ⟨hends, rfl⟩, _, ⟨hinside, _⟩, h⟩
    exact ⟨⟨hends, hinside⟩, Except.ok.inj h⟩
  · rintro ⟨⟨hends, hinside⟩, rfl⟩
    exact ⟨_, ⟨hends, rfl⟩, _, ⟨hinside, rfl⟩, rfl⟩

/-- The descriptors of the short list, in file order. -/
def descriptors (c : Container) : List MemoryDescriptor :=
  match c.stream? StreamKind.memoryList.tag with
  | none => []
  | some stream => (List.range (listCount stream)).map fun i =>
    descriptorAt stream (listStart stream.size (listCount stream * 16) + i * 16)

theorem memoryList_eq_ok_iff {found : List MemoryDescriptor} :
    c.list .memoryList = .ok found ↔
      (∀ stream, c.stream? StreamKind.memoryList.tag = some stream →
        4 + listCount stream * 16 ≤ stream.size) ∧ c.descriptors = found := by
  have hsize : Record.size MemoryDescriptor = 16 := rfl
  rw [list, descriptors]
  cases hstream : c.stream? StreamKind.memoryList.tag with
  | none => simp
  | some stream =>
    simp only [Option.some.injEq, forall_eq']
    by_cases hlong : 4 + listCount stream * 16 ≤ stream.size
    · have hall : ((List.range (listCount stream)).mapM fun i =>
          recordAt stream (listStart stream.size (listCount stream * 16) + i * 16)) =
            .ok ((List.range (listCount stream)).map fun i =>
              descriptorAt stream (listStart stream.size (listCount stream * 16) + i * 16)) := by
        refine mapM_eq_ok fun i hi => recordAt_descriptor_iff.2 ⟨?_, rfl⟩
        have hi := List.mem_range.1 hi
        have hfits := lt_listStart_iff.not.2 (Nat.not_lt.2 hlong)
        omega
      rw [listRecords_eq (by decide) (by omega), hsize, if_neg (Nat.not_lt.2 hlong), hall,
        Except.ok.injEq, and_iff_right hlong]
    · obtain ⟨fault, hfault⟩ : ∃ fault, (listRecords .memoryList stream :
          Except Malformed (List MemoryDescriptor)) = .error fault :=
        listRecords_of_short (by decide) (Nat.not_le.1 hlong)
      simp [hfault, hlong]

def longCount (stream : Buffer) : Nat := (wideField stream 0).toNat

def longBase (stream : Buffer) : Nat := (wideField stream 8).toNat

def longSize (stream : Buffer) (i : Nat) : Nat := (wideField stream (16 + 16 * i + 8)).toNat

/-- What the descriptor of the given number in a long list says. Its bytes come after those of all
descriptors before it. -/
def longAt (stream : Buffer) (i : Nat) : Saved :=
  ⟨⟨wideField stream (16 + 16 * i)⟩, longSize stream i,
    longBase stream + ((List.range i).map (longSize stream)).sum⟩

/-- What the descriptors of the long list say, in file order. -/
def longSaved (c : Container) : List Saved :=
  match c.stream? StreamKind.memory64List.tag with
  | none => []
  | some stream => (List.range (longCount stream)).map (longAt stream)

theorem longAt_succ (stream : Buffer) (i : Nat) : (longAt stream (i + 1)).offset =
    (longAt stream i).offset + (longAt stream i).size := by
  simp only [longAt, List.range_succ, List.map_append, List.sum_append, List.map_cons, List.map_nil,
    List.sum_singleton, Nat.add_assoc]

theorem recordAt_long_iff {descriptor : LongMemoryDescriptor} :
    recordAt stream place = .ok descriptor ↔ place + 16 ≤ stream.size ∧
      ⟨wideField stream place, wideField stream (place + 8)⟩ = descriptor := by
  rw [recordAt_eq_ok_iff Reader.takes_longMemoryDescriptor rfl]
  simp (disch := omega) only [wideField, List.drop_take, Reader.number_take, List.drop_drop]

theorem recordAt_longHeader_iff {header : LongMemoryHeader} :
    recordAt stream 0 = .ok header ↔ 16 ≤ stream.size ∧
      ⟨wideField stream 0, wideField stream 8⟩ = header := by
  rw [recordAt_eq_ok_iff Reader.takes_longMemoryHeader rfl]
  simp (disch := omega) only [wideField, List.drop_take, Reader.number_take, List.drop_zero,
    Nat.zero_add]

/-- What is left of a long list is read if it is all there and of memory that can be. The bytes of
the first descriptor are where those before it end. -/
theorem longMemoryRecords_eq_ok_iff (hstream : stream.size < 2 ^ 32)
    (hdata : c.data.size < UInt64.size) {remaining i : Nat} (hi : 16 + 16 * i ≤ stream.size)
    {records : List MemoryRecord} :
    c.longMemoryRecords stream remaining (16 + 16 * i) (longAt stream i).offset = .ok records ↔
      16 + 16 * (i + remaining) ≤ stream.size ∧
        (∀ s ∈ (List.range' i remaining).map (longAt stream), s.Fits c.data.size) ∧
        ((List.range' i remaining).map (longAt stream)).map Saved.record = records := by
  induction remaining generalizing i records with
  | zero => simp [longMemoryRecords, hi]
  | succ remaining ih =>
    have hnext : 16 + 16 * i + Record.size LongMemoryDescriptor = 16 + 16 * (i + 1) := rfl
    rw [longMemoryRecords, List.range'_succ, List.map_cons, List.map_cons, List.forall_mem_cons]
    simp only [bind_eq_ok, recordAt_long_iff, intervalOf_eq_ok_iff, slice_eq_ok_iff,
      Buffer.slice?_eq_some_iff, offset_eq_ok_iff, hnext]
    constructor
    · rintro ⟨_, ⟨hplace, rfl⟩, _, ⟨hends, rfl⟩, _, ⟨hinside, _⟩, _, ⟨_, rfl⟩, _, ⟨_, rfl⟩, rest,
        hrest, h⟩
      obtain ⟨hlong, hfits, rfl⟩ := (ih hplace).1 (by rw [longAt_succ]; exact hrest)
      exact ⟨by omega, ⟨⟨hends, hinside⟩, hfits⟩, Except.ok.inj h⟩
    · rintro ⟨hlong, ⟨⟨hends, hinside⟩, hfits⟩, rfl⟩
      have hplace : 16 + 16 * (i + 1) ≤ stream.size := by omega
      have hrest := (ih hplace).2 ⟨by omega, hfits, rfl⟩
      rw [longAt_succ] at hrest
      refine ⟨_, ⟨hplace, rfl⟩, _, ⟨hends, rfl⟩, _, ⟨hinside, rfl⟩, _, ⟨?_, rfl⟩, _, ⟨?_, rfl⟩, _,
        hrest, rfl⟩
      · simp only [UInt64.size]
        omega
      · exact Nat.lt_of_le_of_lt hinside hdata

theorem longMemory_eq_ok_iff (hdata : c.data.size < UInt64.size) {records : List MemoryRecord} :
    c.longMemory = .ok records ↔
      (∀ stream, c.stream? StreamKind.memory64List.tag = some stream →
        16 + 16 * longCount stream ≤ stream.size) ∧
      (∀ s ∈ c.longSaved, s.Fits c.data.size) ∧ c.longSaved.map Saved.record = records := by
  rw [longMemory, longSaved]
  cases hstream : c.stream? StreamKind.memory64List.tag with
  | none => simp
  | some stream =>
    have hloop : 16 ≤ stream.size →
        (c.longMemoryRecords stream (longCount stream) 16 (longBase stream) = .ok records ↔
          16 + 16 * longCount stream ≤ stream.size ∧
          (∀ s ∈ (List.range (longCount stream)).map (longAt stream), s.Fits c.data.size) ∧
          ((List.range (longCount stream)).map (longAt stream)).map Saved.record = records) := by
      intro hsize
      have h : c.longMemoryRecords stream (longCount stream) 16 (longBase stream) = .ok records ↔
          _ := longMemoryRecords_eq_ok_iff (i := 0) (size_lt_of_stream? hstream) hdata hsize
      rw [Nat.zero_add, ← List.range_eq_range'] at h
      exact h
    simp only [bind_eq_ok, recordAt_longHeader_iff, Option.some.injEq, forall_eq']
    constructor
    · rintro ⟨_, ⟨hsize, rfl⟩, h⟩
      exact (hloop hsize).1 h
    · intro h
      have hsize : 16 ≤ stream.size := by omega
      exact ⟨_, ⟨hsize, rfl⟩, (hloop hsize).2 h⟩

/-- What all descriptors say, those of the short list first. -/
def saved (c : Container) : List Saved := c.descriptors.map savedOf ++ c.longSaved

/-- A list is too short for the descriptors that it says it has. -/
def CutOff (c : Container) : Prop :=
  (∃ stream, c.stream? StreamKind.memoryList.tag = some stream ∧
    stream.size < 4 + listCount stream * 16) ∨
  ∃ stream, c.stream? StreamKind.memory64List.tag = some stream ∧
    stream.size < 16 + 16 * longCount stream

theorem memoryRecords_eq_ok_iff (hdata : c.data.size < UInt64.size)
    {records : List MemoryRecord} :
    c.memoryRecords = .ok records ↔
      ¬c.CutOff ∧ (∀ s ∈ c.saved, s.Fits c.data.size) ∧ c.saved.map Saved.record = records := by
  have hshort : ∀ short, c.descriptors.mapM c.memoryRecord = .ok short ↔
      (∀ s ∈ c.descriptors.map savedOf, s.Fits c.data.size) ∧
        (c.descriptors.map savedOf).map Saved.record = short := by
    intro short
    rw [mapM_eq_ok_iff fun _ _ => memoryRecord_eq_ok_iff, List.forall_mem_map, List.map_map]
    rfl
  have hwhole : ¬c.CutOff ↔
      (∀ stream, c.stream? StreamKind.memoryList.tag = some stream →
        4 + listCount stream * 16 ≤ stream.size) ∧
      ∀ stream, c.stream? StreamKind.memory64List.tag = some stream →
        16 + 16 * longCount stream ≤ stream.size := by
    simp [CutOff]
  rw [memoryRecords, hwhole, saved, List.forall_mem_append, List.map_append]
  simp only [bind_eq_ok, memoryList_eq_ok_iff, longMemory_eq_ok_iff hdata]
  constructor
  · rintro ⟨_, ⟨hlist, rfl⟩, short, hmapM, _, ⟨hlong, hfits', rfl⟩, h⟩
    obtain ⟨hfits, rfl⟩ := (hshort short).1 hmapM
    exact ⟨⟨hlist, hlong⟩, ⟨hfits, hfits'⟩, Except.ok.inj h⟩
  · rintro ⟨⟨hlist, hlong⟩, ⟨hfits, hfits'⟩, rfl⟩
    exact ⟨_, ⟨hlist, rfl⟩, _, (hshort _).2 ⟨hfits, rfl⟩, _, ⟨hlong, hfits', rfl⟩, rfl⟩

/-- However many descriptors a long list says it has, the loop ends where its stream does. -/
theorem longMemoryRecords_stops {m extra offset : Nat} (h : stream.size < place + 16 * (m + 1)) :
    c.longMemoryRecords stream (m + 1 + extra) place offset =
      c.longMemoryRecords stream (m + 1) place offset := by
  induction m generalizing place offset with
  | zero =>
    rw [Nat.add_comm, longMemoryRecords, longMemoryRecords]
    cases hread : (recordAt stream place : Except Malformed LongMemoryDescriptor) with
    | error fault => rfl
    | ok descriptor =>
      have hinside := (recordAt_long_iff.1 hread).1
      omega
  | succ m ih =>
    rw [Nat.add_right_comm (m + 1), longMemoryRecords, longMemoryRecords]
    refine bind_congr fun descriptor => bind_congr fun range => bind_congr fun bytes => ?_
    cases hplace : Container.offset (place + Record.size LongMemoryDescriptor) with
    | error fault => rfl
    | ok next =>
      obtain ⟨_, rfl⟩ := offset_eq_ok_iff.1 hplace
      have hnext : stream.size < place + Record.size LongMemoryDescriptor + 16 * (m + 1) := by
        change stream.size < place + 16 + 16 * (m + 1)
        omega
      simp only [ok_bind, ih hnext]

theorem longMemory_eq_min (hstream : c.stream? StreamKind.memory64List.tag = some stream)
    (hsize : 16 ≤ stream.size) :
    c.longMemory = c.longMemoryRecords stream (min (longCount stream) (stream.size / 16)) 16
      (longBase stream) := by
  have hheader := recordAt_longHeader_iff.2 ⟨hsize, rfl⟩
  rw [longMemory, hstream]
  simp only [hheader, ok_bind]
  change c.longMemoryRecords stream (longCount stream) 16 (longBase stream) = _
  rcases Nat.le_total (longCount stream) (stream.size / 16) with hle | hle
  · rw [Nat.min_eq_left hle]
  · obtain ⟨extra, hextra⟩ := Nat.exists_eq_add_of_le hle
    obtain ⟨m, hm⟩ : ∃ m, stream.size / 16 = m + 1 := ⟨stream.size / 16 - 1, by omega⟩
    rw [Nat.min_eq_right hle, hextra, hm]
    exact longMemoryRecords_stops (by omega)

/-- The records are what the descriptors of both lists say, in file order. The dump, whose size is a
number of 64 bits as offsets are, is refused as malformed exactly if a list is cut off or a
descriptor is of memory that does not end inside the address space or does not lie in the dump. No
count makes the loop go on beyond the end of its stream. -/
theorem memoryRecords_exact {data : Buffer} (hc : parse data = .ok c)
    (hdata : data.size < UInt64.size) :
    (∀ records, c.memoryRecords = .ok records →
      List.Forall₂ (fun (s : Saved) (record : MemoryRecord) =>
        record.range.start = s.start ∧ record.range.stop.toNat = s.start.toNat + s.size ∧
        record.dataOffset = s.offset ∧ record.dataOffset + s.size ≤ data.size) c.saved records) ∧
    ((∃ fault, Malformed.lift c.memoryRecords = .error (.malformed fault)) ↔
      c.CutOff ∨ (∃ s ∈ c.saved, UInt64.size ≤ s.start.toNat + s.size) ∨
        ∃ s ∈ c.saved, data.size < s.offset + s.size) ∧
    ∀ stream, c.stream? StreamKind.memory64List.tag = some stream → 16 ≤ stream.size →
      c.longMemory = c.longMemoryRecords stream (min (longCount stream) (stream.size / 16)) 16
        (longBase stream) := by
  obtain rfl := data_of_parse hc
  refine ⟨fun records h => ?_, ?_, fun stream hstream hsize => longMemory_eq_min hstream hsize⟩
  · obtain ⟨_, hfits, rfl⟩ := (memoryRecords_eq_ok_iff hdata).1 h
    rw [List.forall₂_map_right_iff, List.forall₂_same]
    exact fun s hs => ⟨rfl, (hfits s hs).stop_record, rfl, (hfits s hs).inside⟩
  · rw [Malformed.exists_lift_eq_error_iff]
    simp only [memoryRecords_eq_ok_iff hdata]
    constructor
    · intro hnone
      by_contra hno
      simp only [not_or, not_exists, not_and, Nat.not_le, Nat.not_lt] at hno
      obtain ⟨hwhole, hends, hinside⟩ := hno
      exact hnone ⟨_, hwhole, fun s hs => ⟨hends s hs, hinside s hs⟩, rfl⟩
    · rintro h ⟨_, hwhole, hfits, rfl⟩
      rcases h with hcut | ⟨s, hs, hends⟩ | ⟨s, hs, hinside⟩
      · exact hwhole hcut
      · exact absurd (hfits s hs).ends (Nat.not_lt.2 hends)
      · exact absurd (hfits s hs).inside (Nat.not_le.2 hinside)

/-- A dump that has two bytes of memory in the short list, and one and three in the long list. -/
def saving : Buffer :=
  let header : Header := ⟨signature, 0, 2, 32, 0, 0, 0⟩
  let directory : List DirectoryEntry := [⟨StreamKind.memoryList.tag, 20, 56⟩,
    ⟨StreamKind.memory64List.tag, 48, 76⟩]
  let short : List MemoryDescriptor := [⟨0x1000, ⟨2, 124⟩⟩]
  let long : List LongMemoryDescriptor := [⟨0x2000, 1⟩, ⟨0x3000, 3⟩]
  Buffer.ofBytes (Record.write header ++ directory.flatMap Record.write ++
    listBytes [] (short.map Record.write) ++ Record.write (LongMemoryHeader.mk 2 126) ++
    long.flatMap Record.write ++ [1, 2, 3, 4, 5, 6])

theorem memoryRecords_exact_saving : ∃ c stream records, parse saving = .ok c ∧
    c.stream? StreamKind.memory64List.tag = some stream ∧
    c.longMemory = c.longMemoryRecords stream 2 16 126 ∧ c.memoryRecords = .ok records ∧
    c.saved.map Saved.offset = [124, 126, 127] ∧
    records.map MemoryRecord.dataOffset = [124, 126, 127] := by
  have hparse : (parse saving).toOption.map (fun c => (c.saved.map Saved.offset,
      c.memoryRecords.toOption.isSome, (c.stream? StreamKind.memory64List.tag).map fun stream =>
        (stream.size, longCount stream, longBase stream))) =
      some ([124, 126, 127], true, some (48, 2, 126)) := by
    decide +kernel
  obtain ⟨c, hc, hseen⟩ := exists_ok_of_map hparse
  obtain ⟨hoffsets, hseen⟩ := Prod.mk.inj hseen
  obtain ⟨hrecords, hstreams⟩ := Prod.mk.inj hseen
  obtain ⟨stream, hstream, hnumbers⟩ := Option.map_eq_some_iff.1 hstreams
  simp only [Prod.mk.injEq] at hnumbers
  obtain ⟨hsize, hcount, hbase⟩ := hnumbers
  obtain ⟨htaken, _, hloop⟩ := memoryRecords_exact hc (by decide +kernel)
  have hlong := hloop stream hstream (by omega)
  rw [hsize, hcount, hbase] at hlong
  cases hfound : c.memoryRecords with
  | error fault => simp [hfound, Except.toOption] at hrecords
  | ok records =>
    have hplaces : List.Forall₂ Eq (c.saved.map Saved.offset)
        (records.map MemoryRecord.dataOffset) := by
      rw [List.forall₂_map_left_iff, List.forall₂_map_right_iff]
      exact (htaken records hfound).imp fun s record hrecord => hrecord.2.2.1.symm
    rw [List.forall₂_eq_eq_eq] at hplaces
    exact ⟨c, stream, records, hc, hstream, hlong, hfound, hoffsets, hplaces ▸ hoffsets⟩

end Container
end CrashDump

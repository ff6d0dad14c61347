import CrashDump.Proofs.Loading
import CrashDump.Proofs.Machine.Streams

/-!
# Captured memory on the machine

The segments of a dump are cut out of it by checked sums. Captured intervals do not overlap and end
inside the address space, so all their bytes together are fewer than 64 bits can count. This bounds
every offset into the bytes; that each entry of the table has all its bytes keeps the slices inside.
-/
namespace CrashDump

namespace Interval

/-- Intervals that follow one another fill no more than what lies above the first of them. -/
theorem Separated.sum_length_lt {ranges : List Interval} {n : Nat} (h : Separated ranges)
    (hfirst : ∀ r ∈ ranges, n ≤ r.start.toNat) (hn : n < UInt64.size) :
    n + (ranges.map length).sum < UInt64.size := by
  induction ranges generalizing n with
  | nil => simpa using hn
  | cons r ranges ih =>
    obtain ⟨hr, hnext, hrest⟩ := cons_iff.1 h
    have hrest := ih hrest (fun s hs => Address.le_def.1 (hnext s hs)) r.stop.toNat_lt
    have hstart := hfirst r List.mem_cons_self
    have hstop := isEmpty_eq_false_iff.1 hr
    rw [List.map_cons, List.sum_cons, length]
    omega

end Interval

namespace Captured

variable {memory more all : Captured} {new : Segment} {dump : Buffer}

/-- The bytes are those of the captured intervals and no others. -/
def Compact (memory : Captured) : Prop :=
  memory.data.size = (memory.ranges.map Interval.length).sum

theorem compact_empty : Compact empty := rfl

theorem Compact.push (h : memory.Compact) (hs : new.bytes.size = new.range.length) :
    (memory.push new).Compact := by
  have hranges : (memory.push new).ranges = memory.ranges ++ [new.range] := by
    simp [Captured.push, ranges]
  rw [Compact, hranges, List.map_append, List.sum_append, ← h]
  simp [Captured.push, hs]

theorem Compact.insert? (h : memory.Compact) (hs : new.bytes.size = new.range.length)
    (hmore : memory.insert? new = some more) : more.Compact := by
  unfold Captured.insert? at hmore
  split at hmore
  · obtain rfl := Option.some.inj hmore
    exact h
  · simp only at hmore
    split at hmore
    · simp at hmore
    · obtain rfl := Option.some.inj hmore
      have hindex := Search.boundary_le
        (fun entry : CapturedRange => decide (entry.range.stop ≤ new.range.start)) memory.table
      rw [← Array.length_toList] at hindex
      have hperm := ((List.perm_insertIdx (⟨new.range, memory.data.size⟩ : CapturedRange)
        memory.table.toList hindex).map CapturedRange.range).map Interval.length
      rw [Compact, ranges, Array.toList_insertIdx, hperm.sum_eq, ByteArray.size_append, h, hs]
      exact Nat.add_comm _ _

theorem Compact.add (h : memory.Compact) (hs : new.bytes.size = new.range.length) :
    (memory.add new).Compact := by
  cases hmore : memory.insert? new with
  | none => rwa [add_of_none hmore]
  | some more =>
    rw [add_of_some hmore]
    exact h.insert? hs hmore

theorem Compact.assemble {previous : Option Segment} {records : List MemoryRecord}
    {found : List Diagnostic} (h : memory.Compact)
    (hall : assemble dump memory previous records = .ok (all, found)) : all.Compact := by
  induction records generalizing memory previous found with
  | nil =>
    obtain ⟨rfl, _⟩ := Prod.mk.inj (Except.ok.inj hall)
    exact h
  | cons record rest ih =>
    obtain ⟨segment, hsegment, hall⟩ := bind_eq_ok.1 hall
    split at hall
    · split at hall
      · obtain ⟨⟨rest, reports⟩, hrest, hall⟩ := bind_eq_ok.1 hall
        obtain ⟨rfl, _⟩ := Prod.mk.inj (Except.ok.inj hall)
        exact ih h hrest
      · simp at hall
    · exact ih (h.push (size_of_segmentOf hsegment)) hall

theorem Reachable.compact (h : memory.Reachable) : memory.Compact := by
  induction h with
  | empty => exact compact_empty
  | build built => exact compact_empty.assemble built
  | add _ filled ih => exact ih.add filled

theorem Reachable.size_lt (h : memory.Reachable) : memory.data.size < UInt64.size := by
  have hsum := h.wellFormed.separated.sum_length_lt (fun _ _ => Nat.zero_le _) (by decide)
  rwa [Nat.zero_add, ← h.compact] at hsum

end Captured

namespace Machine

/-- The segment of a record, cut out of the dump by a checked sum. -/
def segmentOf (dump : Buffer) (record : MemoryRecord) : Except SnapshotFault Segment :=
  match slice? dump record.dataOffset record.range.length with
  | some bytes => .ok ⟨record.range, bytes⟩
  | none => .error (.malformed (.dataOutside record.range))

def assemble (dump : Buffer) (memory : Captured) :
    Option Segment → List MemoryRecord → Except SnapshotFault (Captured × List Diagnostic)
  | _, [] => return (memory, [])
  | previous, record :: rest => do
    let segment ← segmentOf dump record
    match previous.filter fun s => s.range.overlaps segment.range with
    | some other =>
      if other = segment then
        let (all, found) ← assemble dump memory previous rest
        return (all, .duplicateMemory record.range :: found)
      else throw (.corruptMemoryMap other.range segment.range)
    | none => assemble dump (memory.push segment) (some segment) rest

theorem segmentOf_eq {dump : Buffer} (hsmall : dump.size < 2 ^ 63) (record : MemoryRecord) :
    segmentOf dump record = Captured.segmentOf dump record := by
  rw [segmentOf, slice?_eq hsmall]
  rfl

theorem assemble_eq {dump : Buffer} (hsmall : dump.size < 2 ^ 63) (memory : Captured)
    (previous : Option Segment) (records : List MemoryRecord) :
    assemble dump memory previous records = Captured.assemble dump memory previous records := by
  induction records generalizing memory previous with
  | nil => rfl
  | cons record rest ih =>
    unfold assemble Captured.assemble
    simp only [segmentOf_eq hsmall, ih]
    rfl

/-- The bytes that an entry holds from an address on, up to as many as are wanted, and their
number. -/
def piece (memory : Captured) (entry : CapturedRange) (a : Address) (wanted : Nat) :
    Except Trap (Buffer × Nat) := do
  let skip := (a.offsetFrom? entry.range.start).getD 0
  let available := (entry.range.stop.offsetFrom? a).getD 0
  let count := min available wanted
  let start ← add entry.offset skip
  let stop ← add start count
  let bytes ← cut memory.data start stop
  return (bytes, count)

/-- Reads on from `cursor` until `length` bytes are there. Each round reads a byte at least, so as
many rounds as bytes are enough. -/
def readFrom (memory : Captured) (length : Nat) :
    Nat → Buffer → Address → Except Trap (Buffer × Address)
  | 0, bytes, cursor => return (bytes, cursor)
  | rounds + 1, bytes, cursor =>
    if bytes.size < length then
      match memory.find? cursor with
      | none => return (bytes, cursor)
      | some entry => do
        let wanted ← sub length bytes.size
        let (more, count) ← piece memory entry cursor wanted
        match cursor.add? count with
        | none => return (bytes ++ more, cursor)
        | some next => readFrom memory length rounds (bytes ++ more) next
    else return (bytes, cursor)

def read (memory : Captured) (a : Address) (length : Nat) : Except Trap (Buffer × Address) :=
  readFrom memory length length ByteArray.empty a

variable {memory : Captured}

/-- An entry that holds an address has all its bytes, so what is cut out of them is inside. -/
theorem piece_eq (h : memory.WellFormed) (hsmall : memory.data.size < UInt64.size)
    {entry : CapturedRange} {a : Address} (hentry : entry ∈ memory.table)
    (hcontains : entry.range.contains a = true) (wanted : Nat) :
    ∃ bytes, piece memory entry a wanted =
        .ok (bytes, min (entry.range.stop.toNat - a.toNat) wanted) ∧
      bytes.size = min (entry.range.stop.toNat - a.toNat) wanted ∧
      bytes = memory.data.extract (entry.offset + (a.toNat - entry.range.start.toNat))
        (entry.offset + (a.toNat - entry.range.start.toNat) +
          min (entry.range.stop.toNat - a.toNat) wanted) := by
  obtain ⟨hlow, hhigh⟩ := Interval.contains_iff.1 hcontains
  have hfilled := h.filled entry hentry
  rw [Interval.length] at hfilled
  have hskip : a.offsetFrom? entry.range.start = some (a.toNat - entry.range.start.toNat) :=
    Address.offsetFrom?_eq_some_iff.2 (by omega)
  have havailable : entry.range.stop.offsetFrom? a = some (entry.range.stop.toNat - a.toNat) :=
    Address.offsetFrom?_eq_some_iff.2 (by omega)
  simp only [piece, hskip, havailable, Option.getD_some]
  generalize hcount : min (entry.range.stop.toNat - a.toNat) wanted = count
  generalize hstart : entry.offset + (a.toNat - entry.range.start.toNat) = start
  have hstop : start + count ≤ memory.data.size := by omega
  refine ⟨_, ?_, ?_, rfl⟩
  · rw [add_eq (hstart ▸ (by omega)), ok_bind, hstart, add_eq (by omega), ok_bind,
      cut_eq (Nat.le_add_right _ _) hstop, ok_bind]
    rfl
  · rw [ByteArray.size_extract]
    omega

theorem readFrom_eq (h : memory.WellFormed) (hsmall : memory.data.size < UInt64.size)
    {length rounds : Nat} {bytes : Buffer} {cursor : Address}
    (hrounds : length - bytes.size ≤ rounds) : readFrom memory length rounds bytes cursor =
      .ok (bytes ++ (memory.read cursor (length - bytes.size)).1,
        (memory.read cursor (length - bytes.size)).2) := by
  induction rounds generalizing bytes cursor with
  | zero =>
    have hnone : length - bytes.size = 0 := Nat.le_zero.1 hrounds
    rw [hnone, Captured.read, if_pos rfl, ByteArray.append_empty]
    rfl
  | succ rounds ih =>
    unfold readFrom
    by_cases hmore : bytes.size < length
    · rw [if_pos hmore, Captured.read, if_neg (by omega)]
      cases hfind : memory.find? cursor with
      | none =>
        simp only [ByteArray.append_empty]
        rfl
      | some entry =>
        obtain ⟨hentry, hcontains⟩ := h.find?_eq_some_iff.1 hfind
        obtain ⟨_, hhigh⟩ := Interval.contains_iff.1 hcontains
        obtain ⟨more, hpiece, hsize, hextract⟩ :=
          piece_eq h hsmall hentry hcontains (length - bytes.size)
        simp only [sub_eq (Nat.le_of_lt hmore), ok_bind, hpiece, ← hextract]
        generalize hcount : min (entry.range.stop.toNat - cursor.toNat) (length - bytes.size) =
          count at hsize
        obtain ⟨next, hnext⟩ := Address.exists_add? (a := cursor) (b := entry.range.stop)
          (n := count) (by omega)
        have hleft : length - (bytes ++ more).size = length - bytes.size - count := by
          rw [ByteArray.size_append, hsize]
          omega
        simp only [hnext]
        rw [ih (by omega), hleft, ByteArray.append_assoc]
    · rw [if_neg hmore]
      have hnone : length - bytes.size = 0 := by omega
      rw [hnone, Captured.read, if_pos rfl, ByteArray.append_empty]
      rfl

theorem read_eq (h : memory.Reachable) (a : Address) (length : Nat) :
    read memory a length = .ok (memory.read a length) := by
  rw [read, readFrom_eq h.wellFormed h.size_lt (Nat.sub_le _ _)]
  simp

/-- The bytes of a slice as an array, which must be as long. -/
def copied (bytes : Buffer) (width : Nat) : Except Trap Buffer :=
  if bytes.size = width then .ok bytes else .error .outside

def word (memory : Captured) (width : Nat) (a : Address) : Guarded SnapshotFault Nat := do
  let (bytes, _) ← read memory a width
  if bytes.size = width then
    let field ← copied bytes width
    return LittleEndian.value field.bytes
  else throw (.memoryUnavailable a width)

theorem word_eq (h : memory.Reachable) (width : Nat) (a : Address) :
    word memory width a = pass (memory.word width a) := by
  unfold word Captured.word
  rw [read_eq h, lift_bind]
  simp only
  split
  · next hsize =>
    rw [copied, if_pos hsize, lift_bind]
    rfl
  · rfl

/-- Puts an item before those from an index on, which must not lie beyond the end. -/
def insertAt {α : Type} (items : Array α) (index : Nat) (a : α) : Except Trap (Array α) :=
  if h : index ≤ items.size then .ok (items.insertIdx index a h) else .error .outside

def insert? (memory : Captured) (new : Segment) : Except Trap (Option Captured) :=
  if new.range.isEmpty then return some memory
  else
    let index := Search.boundary (fun entry => decide (entry.range.stop ≤ new.range.start))
      memory.table
    if memory.table[index]?.any fun next => next.range.overlaps new.range then return none
    else do
      let table ← insertAt memory.table index ⟨new.range, memory.data.size⟩
      return some ⟨table, memory.data ++ new.bytes⟩

theorem insert?_eq (memory : Captured) (new : Segment) :
    insert? memory new = .ok (memory.insert? new) := by
  unfold insert? Captured.insert?
  split
  · rfl
  · simp only
    split
    · rfl
    · rw [insertAt, dif_pos (Search.boundary_le ..), ok_bind]
      rfl

def withStack (c : Container) (memory : Captured) (record : ThreadRecord) :
    Guarded Malformed (Captured × List Diagnostic) :=
  match record.stackRange? with
  | none => return (memory, [])
  | some range =>
    if memory.covers range then return (memory, [])
    else do
      let bytes ← pass (located c record.stack.location)
      match ← insert? memory ⟨range, bytes⟩ with
      | some more => return (more, [])
      | none => return (memory, [.overlappingStack record.id range])

def withStacks (c : Container) (memory : Captured) :
    List ThreadRecord → Guarded Malformed (Captured × List Diagnostic)
  | [] => return (memory, [])
  | record :: rest => do
    let (more, reports) ← withStack c memory record
    let (all, others) ← withStacks c more rest
    return (all, reports ++ others)

variable {c : Container}

theorem withStack_eq (hc : Holdable c) (memory : Captured) (record : ThreadRecord) :
    withStack c memory record = pass (memory.withStack c record) := by
  unfold withStack Captured.withStack
  cases record.stackRange? with
  | none => rfl
  | some range =>
    simp only
    split
    · rfl
    · rw [located_eq hc]
      refine pass_bind fun bytes _ => ?_
      rw [insert?_eq, lift_bind]
      cases memory.insert? ⟨range, bytes⟩ with
      | none => rfl
      | some more => rfl

theorem withStacks_eq (hc : Holdable c) (memory : Captured) (records : List ThreadRecord) :
    withStacks c memory records = pass (memory.withStacks c records) := by
  induction records generalizing memory with
  | nil => rfl
  | cons record rest ih =>
    unfold withStacks Captured.withStacks
    rw [withStack_eq hc]
    refine pass_bind fun result _ => ?_
    obtain ⟨more, reports⟩ := result
    simp only [ih]
    exact pass_bind fun _ _ => rfl

end Machine
end CrashDump

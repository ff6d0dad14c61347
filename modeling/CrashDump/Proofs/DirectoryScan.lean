import CrashDump.Container.Directory
import CrashDump.Proofs.ReaderWidth

/-!
# Reading the directory

A buffer is accepted exactly when the header, the directory and every stream lie in it. After each
entry the index knows which entry was the first with its tag and which came later, so a stream is
found as the directory in the file has it.
-/
namespace CrashDump

namespace DirectoryIndex

variable {index : DirectoryIndex} {entryOf : Nat → DirectoryEntry} {n : Nat} {tag : UInt32}

def Repeats (entryOf : Nat → DirectoryEntry) (i : Nat) : Prop :=
  ∃ j < i, (entryOf j).tag = (entryOf i).tag

instance (i : Nat) : Decidable (Repeats entryOf i) :=
  inferInstanceAs (Decidable (∃ j < i, (entryOf j).tag = (entryOf i).tag))

def firsts (entryOf : Nat → DirectoryEntry) (n : Nat) : List DirectoryEntry :=
  ((List.range n).filter fun i => ¬Repeats entryOf i).map entryOf

def repeats (entryOf : Nat → DirectoryEntry) (n : Nat) : List DirectoryEntry :=
  ((List.range n).filter fun i => Repeats entryOf i).map entryOf

/-- The first entries with their tags and the later ones are all entries there are. -/
theorem perm_firsts_repeats :
    ((List.range n).map entryOf).Perm (firsts entryOf n ++ repeats entryOf n) := by
  rw [firsts, repeats, ← List.map_append]
  refine List.Perm.map entryOf (List.Perm.trans ?_ List.perm_append_comm)
  simpa using (List.filter_append_perm (fun i => decide (Repeats entryOf i)) (List.range n)).symm

theorem nodup_firsts : ((firsts entryOf n).map DirectoryEntry.tag).Nodup := by
  rw [firsts, List.map_map, List.Nodup, List.pairwise_map]
  refine (List.pairwise_lt_range.filter _).imp_of_mem fun {i j} _ hj hij htag => ?_
  have hfirst : ¬Repeats entryOf j := by simpa using (List.mem_filter.1 hj).2
  exact hfirst ⟨i, hij, htag⟩

theorem repeats_succ : repeats entryOf (n + 1) =
    repeats entryOf n ++ if Repeats entryOf n then [entryOf n] else [] := by
  rw [repeats, List.range_succ, List.filter_append, List.map_append, ← repeats]
  by_cases h : Repeats entryOf n
  · simp [h]
  · simp [h]

/-- The number of the first entry with a tag among the first `n` entries. -/
def numberOf? (entryOf : Nat → DirectoryEntry) (n : Nat) (tag : UInt32) : Option Nat :=
  (List.range n).find? fun i => (entryOf i).tag == tag

theorem numberOf?_eq_none_iff :
    numberOf? entryOf n tag = none ↔ ∀ i < n, (entryOf i).tag ≠ tag := by
  simp [numberOf?]

theorem isSome_numberOf?_iff :
    (numberOf? entryOf n tag).isSome = true ↔ ∃ i < n, (entryOf i).tag = tag := by
  simp [numberOf?]

theorem numberOf?_eq_some_iff {i : Nat} : numberOf? entryOf n tag = some i ↔
    i < n ∧ (entryOf i).tag = tag ∧ ∀ j < i, (entryOf j).tag ≠ tag := by
  rw [numberOf?, List.find?_range_eq_some]
  simp only [beq_iff_eq, List.mem_range, Bool.not_eq_true', beq_eq_false_iff_ne, ne_eq]
  exact and_left_comm

theorem numberOf?_succ : numberOf? entryOf (n + 1) tag =
    (numberOf? entryOf n tag).or (if (entryOf n).tag = tag then some n else none) := by
  rw [numberOf?, List.range_succ, List.find?_append, ← numberOf?]
  by_cases h : (entryOf n).tag = tag
  · simp [h]
  · simp [h]

/-- What the index says after `n` entries. -/
structure Indexes (index : DirectoryIndex) (entryOf : Nat → DirectoryEntry) (n : Nat) : Prop where
  entries : index.entries.toList = (List.range n).map entryOf
  first : ∀ tag, index.first.lookup tag = numberOf? entryOf n tag
  repeated : index.repeated.toList = repeats entryOf n

namespace Indexes

theorem size_entries (h : index.Indexes entryOf n) : index.entries.size = n := by
  rw [← Array.length_toList, h.entries, List.length_map, List.length_range]

theorem find?_eq (h : index.Indexes entryOf n) :
    index.find? tag = (numberOf? entryOf n tag).map entryOf := by
  rw [find?, h.first]
  cases hnumber : numberOf? entryOf n tag with
  | none => rfl
  | some i =>
    have hi := (numberOf?_eq_some_iff.1 hnumber).1
    rw [Option.bind_some, ← Array.getElem?_toList, h.entries, List.getElem?_map,
      List.getElem?_range hi]

theorem add (h : index.Indexes entryOf n) : (index.add (entryOf n)).Indexes entryOf (n + 1) := by
  have hsome : (index.first.lookup (entryOf n).tag).isSome = true ↔ Repeats entryOf n := by
    rw [h.first, isSome_numberOf?_iff, Repeats]
  have hentries : (index.entries.push (entryOf n)).toList = (List.range (n + 1)).map entryOf := by
    rw [Array.toList_push, h.entries, List.range_succ, List.map_append, List.map_singleton]
  by_cases hrep : Repeats entryOf n
  · rw [DirectoryIndex.add, if_pos (hsome.2 hrep)]
    refine ⟨hentries, fun tag => ?_, ?_⟩
    · rw [h.first, numberOf?_succ]
      by_cases hn : (entryOf n).tag = tag
      · rw [Option.or_of_isSome (isSome_numberOf?_iff.2 (hn ▸ hrep))]
      · rw [if_neg hn, Option.or_none]
    · rw [Array.toList_push, h.repeated, repeats_succ, if_pos hrep]
  · rw [DirectoryIndex.add, if_neg (hsome.not.2 hrep)]
    refine ⟨hentries, fun tag => ?_, ?_⟩
    · rw [List.lookup_cons, h.size_entries, h.first, numberOf?_succ]
      by_cases hn : (entryOf n).tag = tag
      · have hnone : numberOf? entryOf n tag = none := by
          rw [numberOf?_eq_none_iff, ← hn]
          exact fun i hi htag => hrep ⟨i, hi, htag⟩
        simp [hn, hnone]
      · simp [hn, beq_eq_false_iff_ne.2 (Ne.symm hn)]
    · rw [h.repeated, repeats_succ, if_neg hrep, List.append_nil]

end Indexes

/-- The index of the first `n` entries. -/
def upTo (entryOf : Nat → DirectoryEntry) (n : Nat) : DirectoryIndex :=
  (List.range n).foldl (fun index i => index.add (entryOf i)) empty

theorem upTo_succ : upTo entryOf (n + 1) = (upTo entryOf n).add (entryOf n) := by
  rw [upTo, List.range_succ, List.foldl_append]
  rfl

theorem indexes_upTo : (upTo entryOf n).Indexes entryOf n := by
  induction n with
  | zero => exact ⟨rfl, fun _ => rfl, rfl⟩
  | succ n ih => exact upTo_succ ▸ ih.add

end DirectoryIndex

namespace Container

variable {data directory : Buffer} {index next : DirectoryIndex} {n : Nat} {c : Container}

/-- The word of four bytes at an offset. -/
def field (data : Buffer) (offset : Nat) : UInt32 := Reader.word32 (data.bytes.drop offset)

def streamCount (data : Buffer) : Nat := (field data 8).toNat

def directoryStart (data : Buffer) : Nat := (field data 12).toNat

/-- The directory entry of the given number, as it stands in the file. -/
def entryAt (data : Buffer) (i : Nat) : DirectoryEntry :=
  let start := directoryStart data + i * 12
  ⟨field data start, ⟨field data (start + 4), field data (start + 8)⟩⟩

/-- Header, directory and every stream are there. -/
structure Complete (data : Buffer) : Prop where
  header : 32 ≤ data.size
  signature : data.bytes.take 4 = [0x4d, 0x44, 0x4d, 0x50]
  directory : directoryStart data + streamCount data * 12 ≤ data.size
  streams : ∀ i < streamCount data, (entryAt data i).location.offset.toNat +
    (entryAt data i).location.size.toNat ≤ data.size

def headerOf (data : Buffer) : Header :=
  ⟨field data 0, field data 4, field data 8, field data 12, field data 16, field data 20,
    UInt64.ofNat (Reader.number 8 (data.bytes.drop 24))⟩

theorem readAt_header_eq_ok_iff {header : Header} :
    data.readAt 0 = .ok header ↔ 32 ≤ data.size ∧ headerOf data = header := by
  rw [Buffer.readAt_eq_ok_iff Reader.takes_header rfl, headerOf]
  simp (disch := omega) only [field, List.drop_zero, List.drop_take, Nat.zero_add,
    Reader.word32_take, Reader.number_take]

theorem readAt_entry_eq_ok_iff {i : Nat} {entry : DirectoryEntry} (hi : i < streamCount data)
    (hdir : data.slice? (directoryStart data) (streamCount data * 12) = some directory) :
    directory.readAt (i * 12) = .ok entry ↔ entryAt data i = entry := by
  obtain ⟨hle, rfl⟩ := Buffer.slice?_eq_some_iff.1 hdir
  have hsize : i * 12 + 12 ≤ (data.extract (directoryStart data)
      (directoryStart data + streamCount data * 12)).size := by
    rw [ByteArray.size_extract]
    omega
  rw [Buffer.readAt_eq_ok_iff Reader.takes_directoryEntry rfl, and_iff_right hsize,
    Buffer.bytes_extract, Nat.add_sub_cancel_left, entryAt]
  simp (disch := omega) only [field, List.drop_take, List.take_take, Reader.word32_take,
    List.drop_drop]

theorem indexEntry_eq_ok_iff {i : Nat} (hi : i < streamCount data)
    (hdir : data.slice? (directoryStart data) (streamCount data * 12) = some directory) :
    indexEntry data directory index i = .ok next ↔
      (entryAt data i).within data.size = true ∧ index.add (entryAt data i) = next := by
  have hentry : ∀ entry, recordAt directory (i * 12) = .ok entry ↔ entryAt data i = entry :=
    fun entry => mapError_eq_ok.trans (readAt_entry_eq_ok_iff hi hdir)
  change (recordAt directory (i * 12) >>= fun entry : DirectoryEntry =>
    if entry.within data.size then .ok (index.add entry) else .error _) = .ok next ↔ _
  simp only [bind_eq_ok, hentry, exists_eq_left']
  split
  · next hwithin => simp [hwithin]
  · next hwithin => simp [hwithin]

/-- The index holds the entries read so far, which all lie in the dump. -/
theorem scan_eq_ok_iff
    (hdir : data.slice? (directoryStart data) (streamCount data * 12) = some directory)
    (hn : n ≤ streamCount data) :
    (List.range n).foldlM (indexEntry data directory) .empty = .ok index ↔
      (∀ i < n, (entryAt data i).within data.size = true) ∧
        DirectoryIndex.upTo (entryAt data) n = index := by
  induction n generalizing index with
  | zero => simp [DirectoryIndex.upTo, pure, Except.pure]
  | succ n ih =>
    have hlast : ∀ before, ([n].foldlM (indexEntry data directory) before = .ok index ↔
        (entryAt data n).within data.size = true ∧ before.add (entryAt data n) = index) := by
      intro before
      rw [List.foldlM_cons, ← indexEntry_eq_ok_iff hn hdir]
      simp
    rw [List.range_succ, List.foldlM_append]
    simp only [bind_eq_ok, ih (Nat.le_of_succ_le hn), hlast, DirectoryIndex.upTo_succ,
      Nat.forall_lt_succ_right]
    constructor
    · rintro ⟨before, ⟨hfirst, rfl⟩, hwithin, rfl⟩
      exact ⟨⟨hfirst, hwithin⟩, rfl⟩
    · rintro ⟨⟨hfirst, hwithin⟩, rfl⟩
      exact ⟨_, ⟨hfirst, rfl⟩, hwithin, rfl⟩

/-- The dump that a complete buffer is read as. -/
def read (data : Buffer) : Container :=
  ⟨data, headerOf data, DirectoryIndex.upTo (entryAt data) (streamCount data)⟩

theorem signature_iff (h : 32 ≤ data.size) :
    (headerOf data).signature = signature ↔ data.bytes.take 4 = [0x4d, 0x44, 0x4d, 0x50] := by
  have hlength : 4 ≤ data.bytes.length := by rw [Buffer.length_bytes]; omega
  exact Reader.word32_eq_iff hlength

theorem parse_eq_ok_iff : parse data = .ok c ↔ Complete data ∧ read data = c := by
  have hheader : ∀ header, ((data.readAt 0).mapError fun _ => Malformed.headerTooShort data.size) =
      .ok header ↔ 32 ≤ data.size ∧ headerOf data = header :=
    fun header => mapError_eq_ok.trans readAt_header_eq_ok_iff
  rw [parse, bind_eq_ok]
  simp only [hheader]
  constructor
  · rintro ⟨header, ⟨hsize, rfl⟩, h⟩
    split at h
    · simp at h
    · next hsignature =>
      split at h
      · simp at h
      · next directory hdir =>
        obtain ⟨index, hscan, h⟩ := bind_eq_ok.1 h
        obtain ⟨hwithin, rfl⟩ := (scan_eq_ok_iff hdir (Nat.le_refl _)).1 hscan
        exact ⟨⟨hsize, (signature_iff hsize).1 (not_not.1 hsignature),
          (Buffer.slice?_eq_some_iff.1 hdir).1, fun i hi => of_decide_eq_true (hwithin i hi)⟩,
          Except.ok.inj h⟩
  · rintro ⟨hcomplete, rfl⟩
    have hdir : data.slice? (headerOf data).directoryOffset.toNat
        ((headerOf data).streamCount.toNat * Record.size DirectoryEntry) = some _ :=
      Buffer.slice?_eq_some_iff.2 ⟨hcomplete.directory, rfl⟩
    have hscan := (scan_eq_ok_iff hdir (Nat.le_refl _)).2
      ⟨fun i hi => decide_eq_true (hcomplete.streams i hi), rfl⟩
    refine ⟨_, ⟨hcomplete.header, rfl⟩, ?_⟩
    rw [if_neg (not_not.2 ((signature_iff hcomplete.header).2 hcomplete.signature)), hdir]
    exact bind_eq_ok.2 ⟨_, hscan, rfl⟩

theorem data_of_parse (h : parse data = .ok c) : c.data = data := by
  obtain ⟨_, rfl⟩ := parse_eq_ok_iff.1 h
  rfl

/-- The bytes that an entry says its stream has. -/
def streamBytes (data : Buffer) (entry : DirectoryEntry) : List UInt8 :=
  (data.bytes.drop entry.location.offset.toNat).take entry.location.size.toNat

theorem indexes_read : (read data).index.Indexes (entryAt data) (streamCount data) :=
  DirectoryIndex.indexes_upTo

theorem has_read (tag : UInt32) : (read data).has tag =
    (DirectoryIndex.numberOf? (entryAt data) (streamCount data) tag).isSome := by
  rw [has, indexes_read.first]

theorem Complete.stream?_read (h : Complete data) (tag : UInt32) :
    ((read data).stream? tag).map Buffer.bytes =
      (DirectoryIndex.numberOf? (entryAt data) (streamCount data) tag).map fun i =>
        streamBytes data (entryAt data i) := by
  rw [stream?, indexes_read.find?_eq]
  cases hnumber : DirectoryIndex.numberOf? (entryAt data) (streamCount data) tag with
  | none => rfl
  | some i =>
    have hi := (DirectoryIndex.numberOf?_eq_some_iff.1 hnumber).1
    have hslice := Buffer.slice?_eq_some_iff.2 ⟨h.streams i hi, rfl⟩
    simp only [Option.map_some, Option.bind_some, read, hslice, Buffer.bytes_extract,
      Nat.add_sub_cancel_left, streamBytes]

theorem slice_eq_ok_iff {offset length : Nat} {bytes : Buffer} :
    c.slice offset length = .ok bytes ↔ c.data.slice? offset length = some bytes := by
  unfold slice
  cases c.data.slice? offset length with
  | none => simp
  | some found => simp

theorem located_eq_ok_iff {location : Location} {bytes : Buffer} :
    c.located location = .ok bytes ↔
      c.data.slice? location.offset.toNat location.size.toNat = some bytes := slice_eq_ok_iff

theorem has_eq_isSome (hc : parse data = .ok c) (tag : UInt32) :
    c.has tag = (c.stream? tag).isSome := by
  obtain ⟨hcomplete, rfl⟩ := parse_eq_ok_iff.1 hc
  rw [has_read, ← Option.isSome_map (f := Buffer.bytes), hcomplete.stream?_read, Option.isSome_map]

/-- A buffer is a dump exactly if it is complete, and is refused as malformed otherwise. A dump lists
the entries in file order, and the stream with a tag is that of the first entry with the tag. -/
theorem parse_exact (data : Buffer) :
    ((∃ c, parse data = .ok c) ↔ Complete data) ∧
    (¬Complete data → ∃ fault, Malformed.lift (parse data) = .error (.malformed fault)) ∧
    ∀ c, parse data = .ok c →
      c.directory = (List.range (streamCount data)).map (entryAt data) ∧
      (∀ tag,
        (∃ i < streamCount data, (entryAt data i).tag = tag ∧
          (∀ j < i, (entryAt data j).tag ≠ tag) ∧ c.has tag = true ∧
          (c.stream? tag).map Buffer.bytes = some (streamBytes data (entryAt data i))) ∨
        ((∀ i < streamCount data, (entryAt data i).tag ≠ tag) ∧
          c.has tag = false ∧ c.stream? tag = none)) ∧
      c.duplicates = DirectoryIndex.repeats (entryAt data) (streamCount data) ∧
      c.directory.Perm (DirectoryIndex.firsts (entryAt data) (streamCount data) ++ c.duplicates) ∧
      ((DirectoryIndex.firsts (entryAt data) (streamCount data)).map DirectoryEntry.tag).Nodup := by
  refine ⟨by simp [parse_eq_ok_iff], fun hbroken => ?_, fun c hc => ?_⟩
  · cases hparse : parse data with
    | ok c => exact absurd (parse_eq_ok_iff.1 hparse).1 hbroken
    | error fault => exact ⟨fault, rfl⟩
  · obtain ⟨hcomplete, rfl⟩ := parse_eq_ok_iff.1 hc
    have hdirectory : (read data).directory = _ := indexes_read.entries
    have hduplicates : (read data).duplicates = _ := indexes_read.repeated
    refine ⟨hdirectory, fun tag => ?_, hduplicates, ?_, DirectoryIndex.nodup_firsts⟩
    · have hhas : (read data).has tag = _ := has_read tag
      have hstream := hcomplete.stream?_read tag
      cases hnumber : DirectoryIndex.numberOf? (entryAt data) (streamCount data) tag with
      | some i =>
        rw [hnumber] at hhas hstream
        obtain ⟨hi, htag, hfirst⟩ := DirectoryIndex.numberOf?_eq_some_iff.1 hnumber
        exact .inl ⟨i, hi, htag, hfirst, hhas, hstream⟩
      | none =>
        rw [hnumber] at hhas hstream
        refine .inr ⟨?_, hhas, Option.map_eq_none_iff.1 hstream⟩
        exact DirectoryIndex.numberOf?_eq_none_iff.1 hnumber
    · rw [hdirectory, hduplicates]
      exact DirectoryIndex.perm_firsts_repeats

/-- A dump with a stream of an unknown type and two of one type. -/
def twice : Buffer :=
  let header : Header := ⟨signature, 0xa793, 3, 32, 0, 0, 0⟩
  let directory : List DirectoryEntry := [⟨0x12345678, ⟨4, 68⟩⟩,
    ⟨StreamKind.linuxMaps.tag, ⟨2, 72⟩⟩, ⟨StreamKind.linuxMaps.tag, ⟨2, 74⟩⟩]
  Buffer.ofBytes (Record.write header ++ directory.flatMap Record.write ++
    [0xaa, 0xaa, 0xaa, 0xaa, 97, 98, 99, 100])

theorem parse_exact_twice : Complete twice ∧ ∃ c, parse twice = .ok c ∧
    c.directory.length = 3 ∧ c.duplicates = [⟨StreamKind.linuxMaps.tag, ⟨2, 74⟩⟩] ∧
    (c.stream? StreamKind.linuxMaps.tag).map Buffer.bytes = some [97, 98] ∧
    c.stream? StreamKind.threadList.tag = none := by
  have hcount : streamCount twice = 3 := by decide +kernel
  have htags : (entryAt twice 0).tag = 0x12345678 ∧
      (entryAt twice 1).tag = StreamKind.linuxMaps.tag ∧
      (entryAt twice 2).tag = StreamKind.linuxMaps.tag := by
    decide +kernel
  have hcomplete : Complete twice := by
    refine ⟨by decide +kernel, by decide +kernel, by decide +kernel, ?_⟩
    rw [hcount]
    decide +kernel
  obtain ⟨c, hc⟩ := (parse_exact twice).1.2 hcomplete
  obtain ⟨hdirectory, hstreams, hduplicates, -⟩ := (parse_exact twice).2.2 c hc
  rw [hcount] at hdirectory hstreams hduplicates
  refine ⟨hcomplete, c, hc, by rw [hdirectory]; rfl, ?_, ?_, ?_⟩
  · rw [hduplicates]
    decide +kernel
  · rcases hstreams StreamKind.linuxMaps.tag with ⟨i, hi, htag, hfirst, _, hbytes⟩ | ⟨hnone, _⟩
    · have hone : i = 1 := by
        have hzero : i ≠ 0 := by
          rintro rfl
          exact absurd (htags.1.symm.trans htag) (by decide)
        have htwo : ¬1 < i := fun h => hfirst 1 h htags.2.1
        omega
      subst hone
      rw [hbytes]
      decide +kernel
    · exact absurd htags.2.1 (hnone 1 (by omega))
  · rcases hstreams StreamKind.threadList.tag with ⟨i, hi, htag, _⟩ | ⟨_, _, hnone⟩
    · interval_cases i
      · exact absurd (htags.1.symm.trans htag) (by decide)
      · exact absurd (htags.2.1.symm.trans htag) (by decide)
      · exact absurd (htags.2.2.symm.trans htag) (by decide)
    · exact hnone

end Container
end CrashDump

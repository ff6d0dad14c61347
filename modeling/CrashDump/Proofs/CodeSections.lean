import CrashDump.Proofs.CodeInference
import CrashDump.Proofs.ImageSearch
import CrashDump.Proofs.Loading
import CrashDump.Proofs.ModuleLookup

/-!
# Code of images

A section is where its address in the file is shifted to with the headers of the file, counted
modulo the size of the address space. What of it lies inside the module is code, unless the section
wraps. The ranges of code are not empty, they ascend, and none leaves the module, whatever numbers
the file has.
-/
namespace CrashDump

namespace Interval

variable {r s : Interval} {ranges : List Interval} {a : Address}

/-- Strictly by start, then by end. -/
def Before (r s : Interval) : Prop := r.start < s.start ∨ r.start = s.start ∧ r.stop < s.stop

theorem before_of_precedes (h : r.precedes s = true) (hne : r ≠ s) : r.Before s := by
  have hback : ¬s.precedes r = true := fun hback => hne (eq_of_precedes h hback)
  rw [precedes_iff] at h hback
  rw [Before, Address.lt_def, Address.lt_def, ← Address.toNat_inj]
  omega

theorem mem_distinct : r ∈ distinct ranges ↔ r ∈ ranges := by
  fun_induction distinct ranges with
  | case1 => rfl
  | case2 s => rfl
  | case3 s rest ih => simp [ih]
  | case4 s t rest hdiffers ih => rw [List.mem_cons, ih, ← List.mem_cons]

/-- Sorted intervals without repetitions ascend strictly. -/
theorem pairwise_distinct (h : ranges.Pairwise fun r s => r.precedes s = true) :
    (distinct ranges).Pairwise Before := by
  fun_induction distinct ranges with
  | case1 => exact List.Pairwise.nil
  | case2 s => exact List.pairwise_singleton ..
  | case3 s rest ih => exact ih h.of_cons
  | case4 s t rest hdiffers ih =>
    obtain ⟨hfirst, hrest⟩ := List.pairwise_cons.1 h
    refine List.pairwise_cons.2 ⟨fun u hu => ?_, ih hrest⟩
    rw [mem_distinct] at hu
    refine before_of_precedes (hfirst u hu) ?_
    rintro rfl
    -- An equal one further on would be equal to the next one as well.
    rcases List.mem_cons.1 hu with rfl | hu
    · exact hdiffers rfl
    · have hnext := List.rel_of_pairwise_cons hrest hu
      exact hdiffers (eq_of_precedes (hfirst t List.mem_cons_self) hnext)

theorem contains_clip :
    (r.clip s).contains a = true ↔ r.contains a = true ∧ s.contains a = true := by
  simp only [contains_iff, clip, Address.toNat_max, Address.toNat_min]
  omega

theorem clip_inside (r s : Interval) :
    s.start ≤ (r.clip s).start ∧ (r.clip s).stop ≤ s.stop := by
  simp only [Address.le_def, clip, Address.toNat_max, Address.toNat_min]
  omega

/-- An end that is not an address comes to the highest one either way. -/
theorem getD_ofLength? (start : Address) (length : Nat) :
    (ofLength? start length).getD ⟨start, Address.top⟩ = upTo start length := by
  unfold ofLength? upTo Address.saturatingAdd
  cases start.add? length with
  | none => rfl
  | some stop => rfl

end Interval

namespace ObjectFile

variable {file : ObjectFile} {headers : UInt64}

/-- Where a file would have its headers: at the address it names, or else where the lowest of the
parts is that it holds bytes for, or at zero if there is none. -/
inductive Prefers (file : ObjectFile) : UInt64 → Prop
  | named {address : UInt64} (h : file.headerAddress = some address) : Prefers file address
  | lowest {segment : FileSegment} (h : file.headerAddress = none) (hmem : segment ∈ file.segments)
      (hheld : 0 < segment.fileSize)
      (hleast : ∀ other ∈ file.segments, 0 < other.fileSize → segment.address ≤ other.address) :
      Prefers file segment.address
  | zero (h : file.headerAddress = none)
      (hnone : ∀ segment ∈ file.segments, segment.fileSize = 0) : Prefers file 0

theorem prefers_preferredAddress (file : ObjectFile) : file.Prefers file.preferredAddress := by
  unfold preferredAddress
  split
  · next address haddress => exact .named haddress
  · next hnone =>
    dsimp only
    cases hleast : ((file.segments.filter fun s => s.fileSize > 0).map FileSegment.address).min? with
    | none =>
      rw [List.min?_eq_none_iff, List.map_eq_nil_iff, List.filter_eq_nil_iff] at hleast
      refine .zero hnone fun segment hsegment => ?_
      have hempty := hleast segment hsegment
      rw [decide_eq_true_eq, gt_iff_lt, UInt64.lt_iff_toNat_lt] at hempty
      exact UInt64.toNat_inj.1 (Nat.eq_zero_of_not_pos hempty)
    | some address =>
      obtain ⟨hmem, hbelow⟩ := List.min?_eq_some_iff.1 hleast
      obtain ⟨segment, hsegment, rfl⟩ := List.mem_map.1 hmem
      obtain ⟨hsegment, hheld⟩ := List.mem_filter.1 hsegment
      refine .lowest hnone hsegment (of_decide_eq_true hheld) fun other hother hbytes => ?_
      exact hbelow _ (List.mem_map_of_mem (List.mem_filter.2 ⟨hother, decide_eq_true hbytes⟩))

theorem Prefers.unique {other : UInt64} (h : file.Prefers headers) (h' : file.Prefers other) :
    headers = other := by
  cases h with
  | named h =>
    cases h' with
    | named h' => exact Option.some.inj (h.symm.trans h')
    | lowest h' => simp [h] at h'
    | zero h' => simp [h] at h'
  | lowest hnone hmem hheld hleast =>
    cases h' with
    | named h' => simp [hnone] at h'
    | lowest _ hmem' hheld' hleast' =>
      exact UInt64.le_antisymm (hleast _ hmem' hheld') (hleast' _ hmem hheld)
    | zero _ hempty => simp [hempty _ hmem] at hheld
  | zero hnone hempty =>
    cases h' with
    | named h' => simp [hnone] at h'
    | lowest _ hmem hheld _ => simp [hempty _ hmem] at hheld
    | zero _ _ => rfl

theorem Prefers.preferredAddress_eq (h : file.Prefers headers) : file.preferredAddress = headers :=
  (prefers_preferredAddress file).unique h

end ObjectFile

namespace Image

variable {file : ObjectFile} {base a : Address} {size headers : UInt64} {code : CodeSection}
  {r : Interval}

/-- The number of the address at which a section starts in the process, if the headers of its file
are at `base`. -/
def startOf (headers : UInt64) (base : Address) (code : CodeSection) : Nat :=
  (((code.address.toNat : Int) + base.toNat - headers.toNat) % 2 ^ 64).toNat

theorem toNat_slid (headers : UInt64) (base : Address) (code : CodeSection) :
    (code.address + (base.value - headers)).toNat = startOf headers base code := by
  have haddress := code.address.toNat_lt
  have hbase := base.value.toNat_lt
  have hheaders := headers.toNat_lt
  rw [UInt64.toNat_add, UInt64.toNat_sub, startOf, Address.toNat]
  omega

theorem loaded?_eq_some_iff : loaded? file base code = some r ↔
    r.start.toNat = startOf file.preferredAddress base code ∧
      r.stop.toNat = startOf file.preferredAddress base code + code.size.toNat := by
  have hstart : ∀ b : Address, b = ⟨code.address + (base.value - file.preferredAddress)⟩ ↔
      b.toNat = startOf file.preferredAddress base code := by
    intro b
    rw [← Address.toNat_inj, ← toNat_slid]
    rfl
  rw [loaded?, Interval.ofLength?_eq_some_iff, hstart]
  refine and_congr_right fun _ => ?_
  rw [← toNat_slid]
  rfl

/-- An address is in a loaded section if the section does not wrap and reaches over it. -/
theorem exists_loaded?_iff : (∃ r, loaded? file base code = some r ∧ r.contains a = true) ↔
    startOf file.preferredAddress base code + code.size.toNat < 2 ^ 64 ∧
      startOf file.preferredAddress base code ≤ a.toNat ∧
      a.toNat < startOf file.preferredAddress base code + code.size.toNat := by
  simp only [loaded?_eq_some_iff, Interval.contains_iff]
  constructor
  · rintro ⟨r, ⟨hstart, hstop⟩, hlow, hhigh⟩
    have hr : r.stop.toNat < 2 ^ 64 := r.stop.toNat_lt
    omega
  · rintro ⟨hinside, hlow, hhigh⟩
    refine ⟨⟨.ofNat (startOf file.preferredAddress base code),
      .ofNat (startOf file.preferredAddress base code + code.size.toNat)⟩, ?_, ?_⟩
    · exact ⟨Address.toNat_ofNat (by change _ < 2 ^ 64; omega), Address.toNat_ofNat hinside⟩
    · rw [Address.toNat_ofNat (by change _ < 2 ^ 64; omega), Address.toNat_ofNat hinside]
      exact ⟨hlow, hhigh⟩

theorem mem_codeRanges : r ∈ codeRanges file base size ↔ r.isEmpty = false ∧
    ∃ code ∈ file.code, 0 < code.size ∧ ∃ whole, loaded? file base code = some whole ∧
      whole.clip (Interval.upTo base size.toNat) = r := by
  have hheld : ∀ code : CodeSection, code.size ≠ 0 ↔ 0 < code.size := by
    intro code
    rw [UInt64.lt_iff_toNat_lt, ne_eq, ← UInt64.toNat_inj]
    exact Nat.pos_iff_ne_zero.symm
  simp only [codeRanges, Interval.getD_ofLength?, Interval.mem_distinct, Interval.sort,
    List.mem_mergeSort, List.mem_filter, List.mem_map, List.mem_filterMap, decide_eq_true_eq,
    Bool.not_eq_true', hheld]
  constructor
  · rintro ⟨⟨whole, ⟨code, ⟨hcode, hsize⟩, hwhole⟩, hclip⟩, hempty⟩
    exact ⟨hempty, code, hcode, hsize, whole, hwhole, hclip⟩
  · rintro ⟨hempty, code, hcode, hsize, whole, hwhole, hclip⟩
    exact ⟨⟨whole, ⟨code, ⟨hcode, hsize⟩, hwhole⟩, hclip⟩, hempty⟩

theorem pairwise_codeRanges (file : ObjectFile) (base : Address) (size : UInt64) :
    (codeRanges file base size).Pairwise Interval.Before :=
  Interval.pairwise_distinct (Interval.pairwise_mergeSort id _)

/-- The code of a file does not leave the module it is loaded as. -/
theorem inside_of_mem_codeRanges (h : r ∈ codeRanges file base size) : r.isEmpty = false ∧
    (Interval.upTo base size.toNat).start ≤ r.start ∧
      r.stop ≤ (Interval.upTo base size.toNat).stop := by
  obtain ⟨hempty, _, _, _, whole, _, rfl⟩ := mem_codeRanges.1 h
  exact ⟨hempty, Interval.clip_inside whole _⟩

/-- What is code of a module is what of it lies in a section that does not wrap. -/
theorem contains_codeRanges : (∃ r ∈ codeRanges file base size, r.contains a = true) ↔
    (Interval.upTo base size.toNat).contains a = true ∧
      ∃ code ∈ file.code, 0 < code.size ∧
        ∃ whole, loaded? file base code = some whole ∧ whole.contains a = true := by
  constructor
  · rintro ⟨r, hr, ha⟩
    obtain ⟨_, code, hcode, hsize, whole, hwhole, rfl⟩ := mem_codeRanges.1 hr
    obtain ⟨hin, hmodule⟩ := Interval.contains_clip.1 ha
    exact ⟨hmodule, code, hcode, hsize, whole, hwhole, hin⟩
  · rintro ⟨hmodule, code, hcode, hsize, whole, hwhole, hin⟩
    have ha := Interval.contains_clip.2 ⟨hin, hmodule⟩
    refine ⟨_, mem_codeRanges.2 ⟨?_, code, hcode, hsize, whole, hwhole, rfl⟩, ha⟩
    -- Nothing is lost with the empty ranges, as this one holds an address.
    rw [Interval.contains_iff] at ha
    rw [Interval.isEmpty_eq_false_iff]
    omega

end Image

namespace Module

/-- If there is an image, it is a file on the disk as it is loaded as this module. -/
def Imaged (reader : Buffer → Except ObjectFault ObjectFile) (disk : Disk) (m : Module) : Prop :=
  ∀ image ∈ m.image, ∃ path, Image.parseWith reader disk path m.base m.size = .ok image

variable {reader : Buffer → Except ObjectFault ObjectFile} {disk : Disk} {m : Module}
  {r : Interval}

theorem imaged_of_ofRecord {c : Container} {directories : List String} {record : ModuleRecord}
    {reports : List Diagnostic} (h : ofRecord c disk directories record = .ok (m, reports)) :
    m.Imaged ObjectFile.parse disk := by
  intro image himage
  have hends := searchEnds_of_ofRecord h
  rw [Option.mem_def.1 himage] at hends
  cases hends with
  | taken _ _ htakes =>
    obtain ⟨hdata, hfile, _⟩ := htakes
    exact ⟨_, Image.parseWith_eq_ok_iff.2 ⟨_, _, hdata, hfile, rfl⟩⟩

theorem exists_codeRanges_of_imaged (h : m.Imaged reader disk) :
    m.executableRanges = [m.range] ∨
      ∃ file, m.executableRanges = Image.codeRanges file m.base m.size := by
  rcases m.executableRanges_cases with ⟨hranges, _⟩ | ⟨image, himage, _, hranges⟩
  · exact .inl hranges
  · obtain ⟨path, hparse⟩ := h image himage
    obtain ⟨_, file, _, _, rfl⟩ := Image.parseWith_eq_ok_iff.1 hparse
    exact .inr ⟨file, hranges⟩

/-- Whether its image says where the code of a module is or not, the code is a set of intervals
inside the module. -/
theorem inside_of_mem_executableRanges (h : m.Imaged reader disk) (hr : r ∈ m.executableRanges) :
    m.range.start ≤ r.start ∧ r.start ≤ r.stop ∧ r.stop ≤ m.range.stop := by
  rcases exists_codeRanges_of_imaged h with hwhole | ⟨file, hcode⟩
  · obtain rfl := List.mem_singleton.1 (hwhole ▸ hr)
    exact ⟨Nat.le_refl _, Address.le_saturatingAdd _ _, Nat.le_refl _⟩
  · obtain ⟨hempty, hstart, hstop⟩ := Image.inside_of_mem_codeRanges (hcode ▸ hr)
    rw [Interval.isEmpty_eq_false_iff] at hempty
    exact ⟨hstart, Address.le_def.2 (by omega), hstop⟩

theorem pairwise_executableRanges (h : m.Imaged reader disk) :
    m.executableRanges.Pairwise Interval.Before := by
  rcases exists_codeRanges_of_imaged h with hwhole | ⟨file, hcode⟩
  · rw [hwhole]
    exact List.pairwise_singleton ..
  · rw [hcode]
    exact Image.pairwise_codeRanges file m.base m.size

end Module

theorem ModuleList.imaged_of_ofContainer {c : Container} {platform : Platform} {disk : Disk}
    {directories : List String} {list : ModuleList} {reports : List Diagnostic}
    (h : ofContainer c platform disk directories = .ok (list, reports)) :
    ∀ m ∈ list.modules, m.Imaged ObjectFile.parse disk := by
  obtain ⟨records, resolved, _, hresolved, hlist⟩ := ofContainer_cases h
  have hall : ∀ m ∈ (ofList (resolved.map Prod.fst)).modules, m.Imaged ObjectFile.parse disk := by
    intro m hm
    obtain ⟨⟨m, found⟩, hfound, rfl⟩ := List.mem_map.1 (List.mem_mergeSort.1 hm)
    obtain ⟨record, _, hrecord⟩ := exists_of_mem_mapM hresolved hfound
    exact Module.imaged_of_ofRecord hrecord
  rcases hlist with ⟨_, rfl, _⟩ | ⟨_, rfl, _⟩
  · exact fun m hm => hall m ((keepFirst_sublist [] _).subset hm)
  · exact hall

theorem Snapshot.imaged_of_load {data : Buffer} {options : LoadOptions} {disk : Disk}
    {s : Snapshot} (h : load data options disk = .ok s) :
    ∀ m ∈ s.modules.modules, m.Imaged ObjectFile.parse disk := by
  obtain ⟨steps, lead⟩ := exists_steps h
  exact ModuleList.imaged_of_ofContainer lead.modules

namespace Image

/-- The code of a file loaded as a module is what of the module lies in a section of code that does
not wrap, in ascending ranges that do not leave the module. What a file names as its own addresses
only says by how much it is shifted. -/
theorem code_exact :
    (∀ (reader : Buffer → Except ObjectFault ObjectFile) (disk : Disk) (path : String)
      (data : Buffer) (file : ObjectFile) (base : Address) (size : UInt64),
      disk.read path = .ok data → reader data = .ok file →
        ∃ image, parseWith reader disk path base size = .ok image ∧
          ∀ m : Module, m.base = base → m.size = size →
            (∀ r ∈ image.executable, r.isEmpty = false ∧ m.range.start ≤ r.start ∧
              r.stop ≤ m.range.stop) ∧
            image.executable.Pairwise Interval.Before ∧
            ∀ headers, file.Prefers headers → ∀ a,
              (∃ r ∈ image.executable, r.contains a = true) ↔
                m.range.contains a = true ∧ ∃ code ∈ file.code, 0 < code.size ∧
                  startOf headers base code + code.size.toNat < 2 ^ 64 ∧
                  startOf headers base code ≤ a.toNat ∧
                  a.toNat < startOf headers base code + code.size.toNat) ∧
    (∀ file : ObjectFile, ∃! headers, file.Prefers headers) ∧
    (∀ m : Module, m.range.start = m.base ∧
      m.range.stop.toNat = min (m.base.toNat + m.size.toNat) (2 ^ 64 - 1)) ∧
    (∀ (reader : Buffer → Except ObjectFault ObjectFile) (disk : Disk) (m : Module),
      m.Imaged reader disk → m.executableRanges.Pairwise Interval.Before ∧
        ∀ r ∈ m.executableRanges,
          m.range.start ≤ r.start ∧ r.start ≤ r.stop ∧ r.stop ≤ m.range.stop) ∧
    ∀ (data : Buffer) (options : LoadOptions) (disk : Disk) (s : Snapshot),
      Snapshot.load data options disk = .ok s →
        ∀ m ∈ s.modules.modules, m.Imaged ObjectFile.parse disk := by
  refine ⟨fun reader disk path data file base size hdata hfile => ?_, fun file => ?_,
    fun m => ⟨rfl, m.toNat_stop_range⟩, fun reader disk m h => ?_,
    fun _ _ _ _ => Snapshot.imaged_of_load⟩
  · refine ⟨_, parseWith_eq_ok_iff.2 ⟨data, file, hdata, hfile, rfl⟩, ?_⟩
    rintro m rfl rfl
    refine ⟨fun r => inside_of_mem_codeRanges, pairwise_codeRanges file m.base m.size,
      fun headers hheaders a => ?_⟩
    rw [contains_codeRanges]
    simp only [exists_loaded?_iff, hheaders.preferredAddress_eq]
    rfl
  · exact ⟨_, file.prefers_preferredAddress, fun _ h => h.preferredAddress_eq.symm⟩
  · exact ⟨Module.pairwise_executableRanges h, fun r => Module.inside_of_mem_executableRanges h⟩

/-- The header of a section of code in a COFF file. -/
def sectionHeader (code : CodeSection) : List UInt8 :=
  List.replicate 12 0 ++ LittleEndian.bytes 4 code.address.toNat ++
    LittleEndian.bytes 4 code.size.toNat ++ List.replicate 16 0 ++ [0x20, 0, 0, 0]

/-- A COFF file with two sections of code. -/
def sectioned (first second : CodeSection) : Buffer :=
  Buffer.ofBytes ([0x4c, 1, 2, 0] ++ List.replicate 16 0 ++ sectionHeader first ++
    sectionHeader second)

/-- Of a module that would go on beyond the last address, a section that ends before it is code, and
one that wraps is not. -/
theorem code_exact_wrapping :
    let tree : FileTree := ⟨[(["x"], sectioned ⟨0x10, 8⟩ ⟨0x18, 16⟩)], []⟩
    ∃ image, parseWith ObjectFile.parse tree.disk "x" ⟨0xfffffffffffffff0⟩ 0x20 = .ok image ∧
      ∀ a, (∃ r ∈ image.executable, r.contains a = true) ↔
        0xfffffffffffffff0 ≤ a.toNat ∧ a.toNat < 0xfffffffffffffff8 := by
  intro tree
  let first : CodeSection := ⟨0x10, 8⟩
  let second : CodeSection := ⟨0x18, 16⟩
  let file : ObjectFile := ⟨none, [⟨0x10, 8⟩, ⟨0x18, 16⟩], [first, second], none⟩
  let m : Module := ⟨"x", ⟨0xfffffffffffffff0⟩, 0x20, "", "", none, 0, 0, none, none⟩
  have hread : tree.disk.read "x" = .ok (sectioned first second) := rfl
  have hfile : ObjectFile.parse (sectioned first second) = .ok file := by decide +kernel
  obtain ⟨image, hparse, hcode⟩ :=
    code_exact.1 ObjectFile.parse tree.disk "x" _ file m.base m.size hread hfile
  have hheaders : file.Prefers 0x10 := file.prefers_preferredAddress
  have hfirst : startOf 0x10 m.base first = 0xfffffffffffffff0 := by decide
  have hsecond : startOf 0x10 m.base second = 0xfffffffffffffff8 := by decide
  have hstart : m.range.start.toNat = 0xfffffffffffffff0 := rfl
  have hstop : m.range.stop.toNat = 0xffffffffffffffff := by decide
  have hsizes : first.size.toNat = 8 ∧ second.size.toNat = 16 := ⟨rfl, rfl⟩
  have hheld : 0 < first.size := by decide
  refine ⟨image, hparse, fun a => ((hcode m rfl rfl).2.2 0x10 hheaders a).trans ?_⟩
  simp only [file, List.mem_cons, List.not_mem_nil, or_false, exists_eq_or_imp, exists_eq_left,
    hfirst, hsecond, Interval.contains_iff, hstart, hstop, hsizes, hheld, true_and]
  omega

end Image
end CrashDump

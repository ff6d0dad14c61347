import CrashDump.Proofs.ListStreams
import CrashDump.Proofs.ThreadContexts

/-!
# Assembling the module list

The modules of a dump are sorted by their bases, in the order of the dump where these are equal. On
systems that list a file once for each mapping the first module of each path is then kept, so it is
the one with the lowest base, and every other is reported.
-/
namespace CrashDump

theorem Buffer.map_bytes_slice? {front slice back : List UInt8} {offset length : Nat}
    (hfront : front.length = offset) (hslice : slice.length = length) :
    (Buffer.slice? (ofBytes (front ++ slice ++ back)) offset length).map bytes = some slice := by
  have hinside : offset + length ≤ (ofBytes (front ++ slice ++ back)).size := by
    rw [← length_bytes, bytes_ofBytes, List.length_append, List.length_append]
    omega
  rw [slice?_eq_some_iff.2 ⟨hinside, rfl⟩, Option.map_some, bytes_extract, bytes_ofBytes,
    List.append_assoc, List.drop_left' hfront, List.take_left' (by omega)]

/-- The path and the base of the module that a report says was listed before. -/
def Diagnostic.repeated? : Diagnostic → Option (String × Address)
  | duplicateModule path base => some (path, base)
  | _ => none

theorem Diagnostic.OfImage.repeated?_eq_none {d : Diagnostic} (h : d.OfImage) :
    d.repeated? = none := by
  rcases h with ⟨_, _, rfl⟩ | ⟨_, _, rfl⟩
  · rfl
  · rfl

namespace Module

variable {m n : Module} {listed : List Module}

def place (m : Module) : String × Address := (m.path, m.base)

/-- What a record of the module list says of its module. -/
structure OfRecord (c : Container) (disk : Disk) (directories : List String)
    (record : ModuleRecord) (m : Module) : Prop where
  path : c.string record.nameOffset = .ok m.path
  base : m.base = ⟨record.base⟩
  whole : ∃ reports, ofRecord c disk directories record = .ok (m, reports)

theorem ofRecord_of_eq_ok {c : Container} {disk : Disk} {directories : List String}
    {record : ModuleRecord} {found : Module × List Diagnostic}
    (h : ofRecord c disk directories record = .ok found) :
    OfRecord c disk directories record found.1 := by
  have hwhole := h
  obtain ⟨path, hpath, h⟩ := bind_eq_ok.1 h
  obtain ⟨codeView, _, h⟩ := bind_eq_ok.1 h
  obtain rfl := Except.ok.inj h
  exact ⟨hpath, rfl, _, hwhole⟩

/-- A module with the lowest base among those that have its path, and the first in the list with
that base. -/
structure LowestOfPath (listed : List Module) (m : Module) : Prop where
  lowest : ∀ n ∈ listed, n.path = m.path → m.base ≤ n.base
  first : listed.find? (fun n => n.path = m.path ∧ n.base = m.base) = some m

theorem LowestOfPath.mem (h : LowestOfPath listed m) : m ∈ listed :=
  List.mem_of_find?_eq_some h.first

theorem LowestOfPath.unique (hm : LowestOfPath listed m) (hn : LowestOfPath listed n)
    (hpath : m.path = n.path) : m = n := by
  have hbase : m.base = n.base :=
    Address.ext_toNat (Nat.le_antisymm (hm.lowest n hn.mem hpath.symm) (hn.lowest m hm.mem hpath))
  have hfirst := hm.first
  rw [hpath, hbase, hn.first] at hfirst
  exact (Option.some.inj hfirst).symm

end Module

namespace ModuleList

variable {modules listed : List Module} {seen : List String} {m k : Module}

/-- One more module goes behind those with a lower base and before all others. -/
theorem exists_ofList_cons (m : Module) (modules : List Module) :
    ∃ front back, (ofList (m :: modules)).modules = front ++ m :: back ∧
      (ofList modules).modules = front ++ back ∧ ∀ n ∈ front, n.base < m.base := by
  obtain ⟨front, back, hmore, hsorted, hfront⟩ :=
    List.mergeSort_cons base_le_trans base_le_total m modules
  refine ⟨front, back, hmore, hsorted, fun n hn => Address.lt_def.2 ?_⟩
  have hnot := hfront n hn
  rw [Bool.not_eq_true', decide_eq_false_iff_not, Address.le_def] at hnot
  exact Nat.lt_of_not_le hnot

/-- The sort keeps the order of equal bases, so what it has first with a path is the first in the
list with that path and that base. -/
theorem find?_of_sorted {path : String}
    (h : (ofList listed).modules.find? (fun n => n.path = path) = some m) :
    listed.find? (fun n => n.path = path ∧ n.base = m.base) = some m := by
  induction listed with
  | nil => simp [ofList] at h
  | cons a rest ih =>
    obtain ⟨front, back, hmore, hsorted, hfront⟩ := exists_ofList_cons a rest
    rw [hmore, List.find?_append] at h
    rw [hsorted, List.find?_append] at ih
    cases hfound : front.find? (fun n => n.path = path) with
    | some n =>
      rw [hfound, Option.some_or] at h ih
      obtain rfl := Option.some.inj h
      have hlt := hfront n (List.mem_of_find?_eq_some hfound)
      rw [List.find?_cons_of_neg, ih rfl]
      simp only [decide_eq_true_eq, not_and]
      rintro - heq
      rw [heq, Address.lt_def] at hlt
      exact Nat.lt_irrefl _ hlt
    | none =>
      rw [hfound, Option.none_or] at h ih
      by_cases hpath : a.path = path
      · rw [List.find?_cons_of_pos (by simpa using hpath)] at h
        obtain rfl := Option.some.inj h
        exact List.find?_cons_of_pos (decide_eq_true ⟨hpath, rfl⟩)
      · rw [List.find?_cons_of_neg (by simpa using hpath)] at h
        rw [List.find?_cons_of_neg (by simp [hpath]), ih h]

/-- The first with its path among the sorted modules leads the others with that path. -/
theorem lowestOfPath_of_find?
    (h : (ofList listed).modules.find? (fun n => n.path = m.path) = some m) :
    m.LowestOfPath listed := by
  refine ⟨fun n hn hpath => ?_, find?_of_sorted h⟩
  obtain ⟨_, front, back, hsplit, hfront⟩ := List.find?_eq_some_iff_append.1 h
  have hascending := ascending_ofList listed
  have hmem : n ∈ (ofList listed).modules := List.mem_mergeSort.2 hn
  rw [hsplit] at hascending hmem
  rcases List.mem_append.1 hmem with hmem | hmem
  · exact absurd hpath (by simpa using hfront n hmem)
  · rcases List.mem_cons.1 hmem with rfl | hmem
    · exact Nat.le_refl _
    · exact List.rel_of_pairwise_cons (List.pairwise_append.1 hascending).2.1 hmem

/-- Kept are the modules that are the first with their path. -/
theorem mem_keepFirst : k ∈ (keepFirst seen modules).1 ↔
    k.path ∉ seen ∧ modules.find? (fun n => n.path = k.path) = some k := by
  induction modules generalizing seen with
  | nil => simp [keepFirst]
  | cons m rest ih =>
    unfold keepFirst
    by_cases hpath : m.path = k.path
    · rw [List.find?_cons_of_pos (by simpa using hpath)]
      split
      · next hseen =>
        have hmem : k.path ∈ seen := hpath ▸ List.contains_iff_mem.1 hseen
        simp [ih, hmem]
      · next hseen =>
        have hmem : k.path ∉ seen := fun hmem => hseen (List.contains_iff_mem.2 (hpath ▸ hmem))
        simp [ih, hpath, hmem, eq_comm]
    · rw [List.find?_cons_of_neg (by simpa using hpath)]
      split
      · exact ih
      · have hne : k ≠ m := fun h => hpath (congrArg Module.path h.symm)
        simp [ih, hne, Ne.symm hpath]

theorem nodup_keepFirst (seen : List String) (modules : List Module) :
    ((keepFirst seen modules).1.map Module.path).Nodup := by
  induction modules generalizing seen with
  | nil => exact List.nodup_nil
  | cons m rest ih =>
    unfold keepFirst
    split
    · exact ih seen
    · refine List.nodup_cons.2 ⟨fun hmem => ?_, ih (m.path :: seen)⟩
      obtain ⟨k, hk, hpath⟩ := List.mem_map.1 hmem
      exact (mem_keepFirst.1 hk).1 (hpath ▸ List.mem_cons_self)

/-- What is not kept is reported, in order. -/
theorem exists_left_keepFirst (seen : List String) (modules : List Module) :
    ∃ left : List Module, left.Sublist modules ∧
      ((keepFirst seen modules).1 ++ left).Perm modules ∧
      (keepFirst seen modules).2.filterMap Diagnostic.repeated? = left.map Module.place := by
  induction modules generalizing seen with
  | nil => exact ⟨[], List.Sublist.refl [], List.Perm.refl [], rfl⟩
  | cons m rest ih =>
    unfold keepFirst
    split
    · obtain ⟨left, hsub, hperm, hreports⟩ := ih seen
      refine ⟨m :: left, hsub.cons_cons m, List.perm_middle.trans (hperm.cons m), ?_⟩
      rw [List.map_cons, ← hreports]
      rfl
    · obtain ⟨left, hsub, hperm, hreports⟩ := ih (m.path :: seen)
      exact ⟨left, hsub.cons m, hperm.cons m, hreports⟩

/-- A list of modules that keeps some of those that a dump lists and leaves out the others. -/
structure Assembles (platform : Platform) (listed : List Module) (list : ModuleList)
    (left : List Module) : Prop where
  perm : (list.modules ++ left).Perm listed
  ascending : Ascending list.modules
  left_ascending : Ascending left
  distinct : platform = .linux ∨ platform = .android → (list.modules.map Module.path).Nodup ∧
    (∀ m ∈ listed, ∃ k ∈ list.modules, k.path = m.path) ∧
    ∀ m, m ∈ list.modules ↔ m.LowestOfPath listed
  complete : platform ≠ .linux → platform ≠ .android → left = []

theorem repeatsModules_iff {platform : Platform} :
    platform.repeatsModules = true ↔ platform = .linux ∨ platform = .android := by
  cases platform <;> simp [Platform.repeatsModules]

theorem assembles_ofList {platform : Platform} (h : platform.repeatsModules = false)
    (listed : List Module) : Assembles platform listed (ofList listed) [] where
  perm := by
    rw [List.append_nil]
    exact List.mergeSort_perm _ _
  ascending := ascending_ofList listed
  left_ascending := List.Pairwise.nil
  distinct hplatform := by
    rw [repeatsModules_iff.2 hplatform] at h
    exact Bool.noConfusion h
  complete _ _ := rfl

theorem exists_assembles_withoutRepeats {platform : Platform} (h : platform.repeatsModules = true)
    (listed : List Module) :
    ∃ left, Assembles platform listed (ofList listed).withoutRepeats.1 left ∧
      (ofList listed).withoutRepeats.2.filterMap Diagnostic.repeated? = left.map Module.place := by
  obtain ⟨left, hsub, hperm, hreports⟩ := exists_left_keepFirst [] (ofList listed).modules
  have hsorted := ascending_ofList listed
  have hleads : ∀ m ∈ (keepFirst [] (ofList listed).modules).1, m.LowestOfPath listed :=
    fun m hm => lowestOfPath_of_find? (mem_keepFirst.1 hm).2
  have hcovers : ∀ m ∈ listed, ∃ k ∈ (keepFirst [] (ofList listed).modules).1,
      k.path = m.path := by
    intro m hm
    have hfound : ((ofList listed).modules.find? fun n => n.path = m.path).isSome = true :=
      List.find?_isSome.2 ⟨m, List.mem_mergeSort.2 hm, decide_eq_true rfl⟩
    obtain ⟨k, hk⟩ := Option.isSome_iff_exists.1 hfound
    have hpath : k.path = m.path := by simpa using List.find?_some hk
    refine ⟨k, mem_keepFirst.2 ⟨List.not_mem_nil, ?_⟩, hpath⟩
    rw [hpath]
    exact hk
  refine ⟨left, ⟨hperm.trans (List.mergeSort_perm _ _), hsorted.sublist (keepFirst_sublist [] _),
    hsorted.sublist hsub, fun _ => ⟨nodup_keepFirst [] _, hcovers, fun m => ⟨hleads m, ?_⟩⟩,
    fun hlinux handroid => ?_⟩, hreports⟩
  · intro hm
    obtain ⟨k, hk, hpath⟩ := hcovers m hm.mem
    exact (hleads k hk).unique hm hpath ▸ hk
  · rcases repeatsModules_iff.1 h with rfl | rfl
    · exact absurd rfl hlinux
    · exact absurd rfl handroid

theorem exists_assembles_ofContainer {c : Container} {platform : Platform} {disk : Disk}
    {directories : List String} {list : ModuleList} {reports : List Diagnostic}
    (h : ofContainer c platform disk directories = .ok (list, reports)) :
    ∃ records listed left, c.modules = .ok records ∧
      List.Forall₂ (Module.OfRecord c disk directories) records listed ∧
      Assembles platform listed list left ∧
      reports.filterMap Diagnostic.repeated? = left.map Module.place := by
  obtain ⟨records, resolved, hrecords, hresolved, hcases⟩ := ofContainer_cases h
  have hlisted : List.Forall₂ (Module.OfRecord c disk directories) records
      (resolved.map Prod.fst) :=
    List.forall₂_map_right_iff.2
      ((forall₂_of_mapM hresolved).imp fun _ _ => Module.ofRecord_of_eq_ok)
  have himages : (resolved.flatMap Prod.snd).filterMap Diagnostic.repeated? = [] := by
    refine List.filterMap_eq_nil_iff.2 fun d hd => ?_
    obtain ⟨found, hfound, hd⟩ := List.mem_flatMap.1 hd
    obtain ⟨record, _, hrecord⟩ := exists_of_mem_mapM hresolved hfound
    exact (Module.ofImage_of_ofRecord hrecord d hd).repeated?_eq_none
  rcases hcases with ⟨hrepeats, rfl, rfl⟩ | ⟨hrepeats, rfl, rfl⟩
  · obtain ⟨left, hassembles, hreports⟩ :=
      exists_assembles_withoutRepeats hrepeats (resolved.map Prod.fst)
    refine ⟨records, _, left, hrecords, hlisted, hassembles, ?_⟩
    rw [List.filterMap_append, himages]
    exact hreports
  · exact ⟨records, _, [], hrecords, hlisted, assembles_ofList hrepeats _, himages⟩

end ModuleList

namespace Snapshot

variable {data : Buffer} {options : LoadOptions} {disk : Disk} {s : Snapshot} {steps : Steps}

/-- Only the step that reads the modules reports that one was listed before. -/
theorem Steps.Lead.repeated_eq (lead : steps.Lead data options disk s) :
    s.diagnostics.filterMap Diagnostic.repeated? =
      steps.moduleReports.filterMap Diagnostic.repeated? := by
  have hstreams : ∀ d ∈ duplicateReports steps.container ++ missingReports steps.container,
      d.repeated? = none := by
    intro d hd
    rcases List.mem_append.1 hd with hd | hd
    · obtain ⟨_, _, rfl⟩ := mem_duplicateReports hd
      rfl
    · obtain ⟨_, rfl⟩ := mem_missingReports hd
      rfl
  have hmemory : ∀ d ∈ steps.memoryReports, d.repeated? = none := by
    intro d hd
    obtain ⟨_, _, rfl⟩ := Captured.mem_reports_of_assemble lead.captured hd
    rfl
  have hstacks : ∀ d ∈ steps.stackReports, d.repeated? = none := by
    intro d hd
    obtain ⟨_, _, _, _, rfl⟩ := Captured.mem_reports_of_withStacks lead.memory hd
    rfl
  have hstray : ∀ d ∈ strayReports steps.exception steps.threadRecords, d.repeated? = none := by
    intro d hd
    obtain ⟨_, rfl⟩ := mem_strayReports hd
    rfl
  have hthreads : ∀ d ∈ steps.threads.flatMap Prod.snd, d.repeated? = none := by
    intro d hd
    obtain ⟨found, hfound, hd⟩ := List.mem_flatMap.1 hd
    obtain ⟨record, _, hrecord⟩ := exists_of_mem_mapM lead.threads hfound
    obtain ⟨_, hregisters, _⟩ := Thread.ofRecord_eq_ok hrecord
    obtain ⟨_, ⟨_, hnone⟩ | ⟨_, _, hreason⟩⟩ :=
      Thread.hasRegisters_of_registersAt lead.ofTag?_processor hregisters
    · simp [hnone] at hd
    · rw [hreason, List.mem_singleton] at hd
      rw [hd]
      rfl
  rw [lead.rest.2.2.2, Steps.diagnostics]
  simp only [List.filterMap_append, List.filterMap_eq_nil_iff.2 hmemory,
    List.filterMap_eq_nil_iff.2 hstacks, List.filterMap_eq_nil_iff.2 hstray,
    List.filterMap_eq_nil_iff.2 hthreads, List.append_nil]
  rw [← List.filterMap_append, List.filterMap_eq_nil_iff.2 hstreams, List.nil_append]

/-- The modules of a snapshot and those reported to be listed before are those of the records of its
dump. On Linux and on Android one module of each path is kept, the first with the lowest base, and
on other systems all are. -/
theorem modules_exact (h : load data options disk = .ok s) :
    ∃ c records listed left, Container.parse data = .ok c ∧ c.modules = .ok records ∧
      List.Forall₂ (Module.OfRecord c disk options.imagePaths) records listed ∧
      ModuleList.Assembles s.platform listed s.modules left ∧
      s.diagnostics.filterMap Diagnostic.repeated? = left.map Module.place ∧
      s.modules.modules.length + (s.diagnostics.filterMap Diagnostic.repeated?).length =
        records.length := by
  obtain ⟨steps, lead⟩ := exists_steps h
  obtain ⟨records, listed, left, hrecords, hlisted, hassembles, hreports⟩ :=
    ModuleList.exists_assembles_ofContainer lead.modules
  refine ⟨steps.container, records, listed, left, lead.container, hrecords, hlisted, hassembles,
    lead.repeated_eq.trans hreports, ?_⟩
  rw [lead.repeated_eq, hreports, List.length_map, ← List.length_append,
    hassembles.perm.length_eq, hlisted.length_eq]

/-- The record of a module with the path at the given place. -/
def mapped (base : UInt64) (path : UInt32) : ModuleRecord :=
  ⟨base, 0x10, 0, 0, path, ⟨0, 0, 0, 0, 0, 0, 0, 0, 0, 0, 0, 0, 0⟩, ⟨0, 0⟩, ⟨0, 0⟩, 0, 0⟩

def remappedRecords : List ModuleRecord :=
  [mapped 0x3000 440, mapped 0x2000 446, mapped 0x1000 440]

/-- A dump of Linux that lists a file twice, first at the higher base, and another one between. -/
def remapped : Buffer :=
  let header : Header := ⟨Container.signature, 0, 2, 32, 0, 0, 0⟩
  let directory : List DirectoryEntry := [⟨StreamKind.systemInfo.tag, 56, 56⟩,
    ⟨StreamKind.moduleList.tag, 328, 112⟩]
  let system : SystemInfo := ⟨5, 0, 0, 1, 0, 0, 0, 0, 0x8201, 0, 0, 0, Vector.replicate 24 0⟩
  Buffer.ofBytes (Record.write header ++ directory.flatMap Record.write ++ Record.write system ++
    Container.listBytes [] (remappedRecords.map Record.write) ++
    [2, 0, 0, 0, 0x61, 0, 2, 0, 0, 0, 0x62, 0])

theorem load_remapped : ∃ s, load remapped ⟨[], 0⟩ noFiles = .ok s ∧ s.platform = .linux ∧
    Container.parse remapped = .ok (Container.read remapped) ∧
    (Container.read remapped).modules = .ok remappedRecords ∧
    (Container.read remapped).string 440 = .ok "a" ∧
    (Container.read remapped).string 446 = .ok "b" := by
  let c := Container.read remapped
  have hcomplete : Container.Complete remapped := by
    have hcount : Container.streamCount remapped = 2 := by decide +kernel
    refine ⟨by decide +kernel, by decide +kernel, by decide +kernel, ?_⟩
    rw [hcount]
    decide +kernel
  obtain ⟨system, hsystem, hfields⟩ : ∃ system, systemInfoOf c = .ok system ∧
      (system.processor, system.platform) = (5, 0x8201) :=
    exists_ok_of_map (by decide +kernel)
  obtain ⟨hprocessor, hplatform⟩ := Prod.mk.inj hfields
  have hentry : c.index.find? StreamKind.moduleList.tag =
      some ⟨StreamKind.moduleList.tag, 328, 112⟩ := by
    decide +kernel
  have hstream : (c.stream? StreamKind.moduleList.tag).map Buffer.bytes =
      some (Container.listBytes [] (remappedRecords.map Record.write)) := by
    have hdata : c.data = remapped := rfl
    rw [Container.stream?, hentry, Option.bind_some, hdata, remapped]
    exact Buffer.map_bytes_slice? (by decide +kernel) (by decide +kernel)
  have hmodules : c.modules = .ok remappedRecords :=
    Container.list_of_listBytes (by decide) (.inl rfl) hstream
  have hfirst : c.string 440 = .ok "a" := by decide +kernel
  have hsecond : c.string 446 = .ok "b" := by decide +kernel
  have hrecord : ∀ base place path, c.string place = .ok path →
      ∃ m, Module.ofRecord c noFiles [] (mapped base place) = .ok (m, []) :=
    fun base place path hpath => ⟨_, bind_eq_ok.2 ⟨path, hpath, rfl⟩⟩
  obtain ⟨m, hm⟩ := hrecord 0x3000 440 "a" hfirst
  obtain ⟨n, hn⟩ := hrecord 0x2000 446 "b" hsecond
  obtain ⟨k, hk⟩ := hrecord 0x1000 440 "a" hfirst
  let kept := (ModuleList.ofList [m, n, k]).withoutRepeats
  have hresolved : remappedRecords.mapM (Module.ofRecord c noFiles []) =
      .ok [(m, []), (n, []), (k, [])] := by
    rw [remappedRecords, List.mapM_cons, hm, List.mapM_cons, hn, List.mapM_cons, hk]
    rfl
  have hlist : ModuleList.ofContainer c .linux noFiles [] = .ok (kept.1, kept.2) :=
    bind_eq_ok.2 ⟨_, hmodules, bind_eq_ok.2 ⟨_, hresolved, rfl⟩⟩
  have hrecords : c.memoryRecords = .ok [] := by decide +kernel
  have hcaptured : Captured.build [] remapped = .ok (.empty, []) := by decide +kernel
  have hthreads : c.threads = .ok [] := by decide +kernel
  have hexception : c.exception = .ok none := by decide +kernel
  have hinfo : Malformed.lift c.memoryInfo = .ok none := by decide +kernel
  have hmaps : c.text? StreamKind.linuxMaps.tag = none := by decide +kernel
  have hregions : regionsOf c .empty kept.1 = .ok ⟨.captured, RegionMap.shown .empty kept.1⟩ := by
    rw [regionsOf, hmaps, hinfo]
    exact RegionMap.build_of_captured Captured.Reachable.empty.wellFormed.separated
  let s : Snapshot := ⟨processIdOf c, .arm, .linux, c.writtenAt?, [], kept.1,
    ⟨.captured, RegionMap.shown .empty kept.1⟩, .empty,
    duplicateReports c ++ missingReports c ++ kept.2⟩
  have lead : Steps.Lead ⟨c, system, kept.2, [], .empty, [], [], [], none, []⟩ remapped
      ⟨[], 0⟩ noFiles s := by
    refine ⟨Container.parse_eq_ok_iff.2 ⟨hcomplete, rfl⟩, hsystem, ?_, ?_, hlist, hrecords,
      hcaptured, hthreads, rfl, hexception, rfl, hregions, rfl, rfl, rfl, ?_⟩
    · rw [hprocessor]
      rfl
    · rw [hplatform]
      rfl
    · simp [s, Steps.diagnostics, strayReports]
  exact ⟨s, lead.load_eq, rfl, lead.container, hmodules, hfirst, hsecond⟩

/-- Of the two modules with one path the lower is kept and the higher is reported. -/
theorem modules_exact_remapped : ∃ s m, load remapped ⟨[], 0⟩ noFiles = .ok s ∧
    s.platform = .linux ∧ (s.modules.modules.map Module.path).Nodup ∧ m ∈ s.modules.modules ∧
    m.place = ("a", ⟨0x1000⟩) ∧
    ("a", ⟨0x3000⟩) ∈ s.diagnostics.filterMap Diagnostic.repeated? := by
  obtain ⟨s, hs, hplatform, hparse, hrecords, hfirst, hsecond⟩ := load_remapped
  obtain ⟨c, records, listed, left, hc, hrecords', hlisted, hassembles, hreports, _⟩ :=
    modules_exact hs
  obtain rfl : Container.read remapped = c := Except.ok.inj (hparse.symm.trans hc)
  obtain rfl := Except.ok.inj (hrecords.symm.trans hrecords')
  rw [remappedRecords] at hlisted
  obtain ⟨hdistinct, hcovers, hleads⟩ := hassembles.distinct (.inl hplatform)
  obtain ⟨high, _, hhigh, hothers, rfl⟩ := List.forall₂_cons_left_iff.1 hlisted
  obtain ⟨other, _, hother, hlast, rfl⟩ := List.forall₂_cons_left_iff.1 hothers
  obtain ⟨low, _, hlow, hnone, rfl⟩ := List.forall₂_cons_left_iff.1 hlast
  obtain rfl := List.forall₂_nil_left_iff.1 hnone
  have hhighPath : "a" = high.path := Except.ok.inj (hfirst.symm.trans hhigh.path)
  have hotherPath : "b" = other.path := Except.ok.inj (hsecond.symm.trans hother.path)
  have hlowPath : "a" = low.path := Except.ok.inj (hfirst.symm.trans hlow.path)
  have hhighBase : high.base = ⟨0x3000⟩ := hhigh.base
  have hlowBase : low.base = ⟨0x1000⟩ := hlow.base
  have hleft : high ∉ s.modules.modules := by
    intro hkept
    have hle := ((hleads high).1 hkept).lowest low (by simp) (hlowPath.symm.trans hhighPath)
    rw [hhighBase, hlowBase] at hle
    exact absurd hle (by decide)
  obtain ⟨m, hm, hpath⟩ := hcovers low (by simp)
  have hmem := ((hleads m).1 hm).mem
  have hlow : m = low := by
    simp only [List.mem_cons, List.not_mem_nil, or_false] at hmem
    rcases hmem with rfl | rfl | rfl
    · exact absurd hm hleft
    · rw [← hotherPath, ← hlowPath] at hpath
      exact absurd hpath (by decide)
    · rfl
  refine ⟨s, m, hs, hplatform, hdistinct, hm, ?_, ?_⟩
  · rw [hlow, Module.place, hlowBase, ← hlowPath]
  · have hhighMem := hassembles.perm.mem_iff.2 (List.mem_cons_self : high ∈ [high, other, low])
    rw [List.mem_append, or_iff_right hleft] at hhighMem
    rw [hreports, hhighPath, ← hhighBase]
    exact List.mem_map_of_mem hhighMem

end Snapshot
end CrashDump

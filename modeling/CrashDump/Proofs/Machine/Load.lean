import CrashDump.Proofs.Machine.Maps
import CrashDump.Proofs.Machine.Regions
import CrashDump.Proofs.Machine.Threads

/-!
# Loading on the machine

A whole load with the sums, products, slices and items that nobody checks. Object files, lines of
memory maps and the status of a process are read by a library; what the library does inside is not
looked at, only what it answers. It has no answer to a line whose path it cannot cut: there the
machine stops, and nothing else stops it.
-/
namespace CrashDump.Machine

structure Library where
  objectFile : Buffer → Except Trap (Except ObjectFault ObjectFile)
  mapsLine : List Char → Except Trap (Option MapsEntry)
  processId : String → Except Trap (Option UInt32)

/-- The library reads the files of a disk and the texts of a dump, and stops at the lines of memory
maps whose paths it cannot cut. -/
structure Library.Serves (library : Library) (disk : Disk) (c : Container) : Prop where
  objectFile : ∀ path data, disk.read path = .ok data →
    library.objectFile data = .ok (ObjectFile.parse data)
  mapsLine : ∀ text, c.text? StreamKind.linuxMaps.tag = some text →
    ∀ line ∈ Text.lines text.toList, library.mapsLine line =
      if MapsEntry.halts line then .error .outside else .ok (MapsEntry.ofLine? line)
  processId : ∀ text, c.text? StreamKind.linuxProcStatus.tag = some text →
    library.processId text = .ok (ProcessStatus.processId? text)

def mapsOfText (library : Library) (text : String) : Except Trap (List MapsEntry) := do
  let lines := (Text.lines text.toList).filter fun line => !(Text.trim line).isEmpty
  let entries ← lines.mapM library.mapsLine
  return (entries.filterMap id).filter fun entry => entry.range.start ≤ entry.range.stop

def mapsOf (library : Library) (c : Container) : Except Trap (Option (List MapsEntry)) := do
  match ← text? c StreamKind.linuxMaps.tag with
  | none => return none
  | some text => do
    let entries ← mapsOfText library text
    return some entries

def processIdOf (library : Library) (c : Container) : Except Trap (Option UInt32) := do
  let misc ← miscInfo? c
  match misc.filter fun misc => misc.flags.toNat.testBit 0 with
  | some misc => return some misc.processId
  | none => do
    match ← text? c StreamKind.linuxProcStatus.tag with
    | none => return none
    | some text => library.processId text

def systemInfoOf (c : Container) : Guarded Malformed SystemInfo := do
  match ← systemInfo c with
  | some info => return info
  | none => throw .noSystemInfo

def regionsOf (library : Library) (c : Container) (memory : Captured) (modules : ModuleList) :
    Guarded SnapshotFault RegionMap := do
  let maps ← mapsOf library c
  let info ← lift (memoryInfo c)
  build maps info memory modules

def gather (library : Library) (data : Buffer) (options : LoadOptions) (disk : Disk) :
    Guarded SnapshotFault Snapshot.Gathered := do
  let c ← lift (parse data)
  let system ← lift (systemInfoOf c)
  let architecture ← pass (Snapshot.architectureOf system.processor)
  let platform := Platform.ofId system.platform
  let processId ← processIdOf library c
  let (modules, moduleReports) ←
    lift (moduleList library.objectFile disk c platform options.imagePaths)
  let records ← lift (memoryRecords c)
  let (captured, memoryReports) ←
    pass (assemble data Captured.empty none (Captured.sorted records))
  let threadRecords ← lift (threads c)
  let (memory, stackReports) ← lift (withStacks c captured threadRecords)
  let exception ← lift (exception c)
  let walk : StackWalk := ⟨architecture, platform, memory⟩
  let threads ←
    threadRecords.mapM (threadOf c system.processor walk options.maxFrames exception)
  return {
    container := c
    processId := processId
    architecture := architecture
    platform := platform
    threads := threads.map Prod.fst
    modules := modules
    memory := memory
    diagnostics := Snapshot.duplicateReports c ++ Snapshot.missingReports c ++ moduleReports ++
      memoryReports ++ stackReports ++ Snapshot.strayReports exception threadRecords ++
      threads.flatMap Prod.snd }

def load (library : Library) (data : Buffer) (options : LoadOptions) (disk : Disk) :
    Guarded SnapshotFault Snapshot := do
  let gathered ← gather library data options disk
  let regions ← regionsOf library gathered.container gathered.memory gathered.modules
  return gathered.snapshot regions

variable {library : Library} {disk : Disk} {c : Container}

/-- The lines are read one by one, so the machine stops at the first one that it cannot cut. -/
theorem mapsOfText_eq {text : String} (hlines : ∀ line ∈ Text.lines text.toList,
    library.mapsLine line =
      if MapsEntry.halts line then .error .outside else .ok (MapsEntry.ofLine? line)) :
    mapsOfText library text =
      if MapsEntry.haltsIn text then .error .outside else .ok (MapsEntry.ofText text) := by
  have hkept : ∀ line ∈ (Text.lines text.toList).filter fun line => !(Text.trim line).isEmpty,
      library.mapsLine line =
        if MapsEntry.halts line then .error .outside else .ok (MapsEntry.ofLine? line) :=
    fun line hline => hlines line (List.mem_filter.1 hline).1
  rw [mapsOfText, mapM_eq_ite hkept, MapsEntry.any_halts_filter, MapsEntry.haltsIn]
  cases (Text.lines text.toList).any MapsEntry.halts with
  | true => rfl
  | false =>
    simp only [Bool.false_eq_true, if_false, ok_bind, List.filterMap_map]
    rfl

section Texts

variable (hserves : library.Serves disk c) (hc : Holdable c)

include hserves hc

theorem mapsOf_eq : mapsOf library c =
    if (c.text? StreamKind.linuxMaps.tag).any MapsEntry.haltsIn then .error .outside
    else .ok ((c.text? StreamKind.linuxMaps.tag).map MapsEntry.ofText) := by
  unfold mapsOf
  rw [text?_eq hc, ok_bind]
  cases htext : c.text? StreamKind.linuxMaps.tag with
  | none => rfl
  | some text =>
    simp only [mapsOfText_eq (hserves.mapsLine text htext), Option.any_some]
    split
    · rfl
    · rfl

theorem processIdOf_eq : processIdOf library c = .ok (Snapshot.processIdOf c) := by
  unfold processIdOf Snapshot.processIdOf
  rw [miscInfo?_eq hc, ok_bind]
  cases c.miscInfo?.filter fun misc => misc.flags.toNat.testBit 0 with
  | some misc => rfl
  | none =>
    simp only [text?_eq hc, ok_bind]
    cases htext : c.text? StreamKind.linuxProcStatus.tag with
    | none => rfl
    | some text => exact hserves.processId text htext

theorem regionsOf_eq {modules : ModuleList} (hmodules : ModuleList.Ascending modules.modules)
    (memory : Captured) : regionsOf library c memory modules =
      if (c.text? StreamKind.linuxMaps.tag).any MapsEntry.haltsIn then trap .outside
      else pass (Snapshot.regionsOf c memory modules) := by
  unfold regionsOf Snapshot.regionsOf
  rw [mapsOf_eq hserves hc]
  split
  · rfl
  · rw [lift_bind, memoryInfo_eq hc, lift_pass]
    refine pass_bind fun info _ => ?_
    exact build_eq hmodules _ info memory

end Texts

theorem systemInfoOf_eq (hc : Holdable c) : systemInfoOf c = pass (Snapshot.systemInfoOf c) := by
  unfold systemInfoOf Snapshot.systemInfoOf
  rw [systemInfo_eq hc]
  refine pass_bind fun info _ => ?_
  cases info with
  | none => rfl
  | some info => rfl

section Load

variable {data : Buffer} (hsmall : data.size < 2 ^ 63)
  (hserves : ∀ c, Container.parse data = .ok c → library.Serves disk c) (options : LoadOptions)

include hsmall hserves

/-- Up to the region map a load meets no trap. -/
theorem gather_eq :
    gather library data options disk = pass (Snapshot.gather data options disk) := by
  unfold gather Snapshot.gather
  rw [parse_eq hsmall, lift_pass]
  refine pass_bind fun c hparse => ?_
  rw [Malformed.lift_eq_ok] at hparse
  have hc := holdable_of_parse hsmall hparse
  have hserves := hserves c hparse
  rw [systemInfoOf_eq hc, lift_pass]
  refine pass_bind fun system _ => ?_
  refine pass_bind fun architecture _ => ?_
  rw [processIdOf_eq hserves hc, lift_bind, moduleList_eq hserves.objectFile hc, lift_pass]
  refine pass_bind fun modules _ => ?_
  obtain ⟨modules, moduleReports⟩ := modules
  rw [memoryRecords_eq hc, lift_pass]
  refine pass_bind fun records _ => ?_
  rw [assemble_eq hsmall]
  refine pass_bind fun captured hcaptured => ?_
  obtain ⟨captured, memoryReports⟩ := captured
  rw [threads_eq hc, lift_pass]
  refine pass_bind fun threadRecords _ => ?_
  rw [withStacks_eq hc, lift_pass]
  refine pass_bind fun memory hmemory => ?_
  obtain ⟨memory, stackReports⟩ := memory
  rw [Malformed.lift_eq_ok] at hmemory
  have hreach := (Captured.extends_of_withStacks (.build hcaptured) hmemory).reachable
  rw [exception_eq hc, lift_pass]
  refine pass_bind fun exception _ => ?_
  have hthread : ∀ record, threadOf c system.processor
      ⟨architecture, Platform.ofId system.platform, memory⟩ options.maxFrames exception record =
      pass (Thread.ofRecord c system.processor
        ⟨architecture, Platform.ofId system.platform, memory⟩ options.maxFrames exception
        record) := threadOf_eq hc hreach _ _ _
  simp only [mapM_eq_pass fun record _ => hthread record]
  exact pass_bind fun threads _ => rfl

/-- A load that gets to a line whose path cannot be cut stops there. Any other load meets no trap,
and its result is the one that numbers of any size give. -/
theorem load_eq : load library data options disk =
    if Snapshot.halts data options disk then trap .outside
    else pass (Snapshot.load data options disk) := by
  rw [load, gather_eq hsmall hserves, Snapshot.halts, Snapshot.load]
  cases hgather : Snapshot.gather data options disk with
  | error fault => rfl
  | ok gathered =>
    obtain ⟨steps, hsteps⟩ := Snapshot.gather_eq_ok_iff.1 hgather
    have hparse := hsteps.rest.1 ▸ hsteps.container
    have hascending := (ModuleList.Built.ofContainer hsteps.modules).ascending
    have hregions := regionsOf_eq (hserves _ hparse) (holdable_of_parse hsmall hparse) hascending
      gathered.memory
    change (regionsOf library gathered.container gathered.memory gathered.modules >>= fun regions =>
      pure (gathered.snapshot regions)) =
        if (gathered.container.text? StreamKind.linuxMaps.tag).any MapsEntry.haltsIn then _ else _
    rw [hregions]
    split
    · rfl
    · exact pass_bind fun regions _ => rfl

end Load

/-- What is asked of a dump is answered without a trap, as numbers of any size answer it. -/
structure Untrapped (c : Container) : Prop where
  threads : threads c = pass c.threads
  modules : modules c = pass c.modules
  memoryRecords : memoryRecords c = pass c.memoryRecords
  memoryInfo : memoryInfo c = pass c.memoryInfo
  exception : exception c = pass c.exception
  systemInfo : systemInfo c = pass c.systemInfo
  miscInfo : miscInfo? c = .ok c.miscInfo?
  string : ∀ place, string c place = pass (c.string place)
  located : ∀ location, located c location = c.located location
  slice : ∀ offset length, slice c offset length = c.slice offset length
  stream : ∀ tag, stream? c tag = .ok (c.stream? tag)
  text : ∀ tag, text? c tag = .ok (c.text? tag)

theorem Holdable.untrapped (hc : Holdable c) : Untrapped c where
  threads := threads_eq hc
  modules := modules_eq hc
  memoryRecords := memoryRecords_eq hc
  memoryInfo := memoryInfo_eq hc
  exception := exception_eq hc
  systemInfo := systemInfo_eq hc
  miscInfo := miscInfo?_eq hc
  string := string_eq hc
  located := located_eq hc
  slice := slice_eq hc
  stream := stream?_eq hc
  text := text?_eq hc

theorem reachable_of_load {data : Buffer} {options : LoadOptions} {s : Snapshot}
    (h : Snapshot.load data options disk = .ok s) : s.memory.Reachable := by
  obtain ⟨steps, lead⟩ := Snapshot.exists_steps h
  exact lead.gather.extended.reachable

theorem halts_iff {data : Buffer} {options : LoadOptions} :
    Snapshot.halts data options disk = true ↔ ∃ gathered text,
      Snapshot.gather data options disk = .ok gathered ∧
      gathered.container.text? StreamKind.linuxMaps.tag = some text ∧
      ∃ line : MapsLine, line.text ∈ Text.lines text.toList ∧ MapsEntry.Stops line := by
  cases hgather : Snapshot.gather data options disk with
  | error fault => simp [Snapshot.halts, hgather, Except.toOption]
  | ok gathered => simp [Snapshot.halts, hgather, Except.toOption, Option.any_eq_true,
      MapsEntry.haltsIn_iff]

/-- A dump whose maps have no line with a path that cannot be cut. -/
theorem halts_eq_false {data : Buffer} {options : LoadOptions}
    (hparse : Container.parse data = .ok c)
    (h : (c.text? StreamKind.linuxMaps.tag).any MapsEntry.haltsIn = false) :
    Snapshot.halts data options disk = false := by
  rw [Snapshot.halts]
  cases hgather : Snapshot.gather data options disk with
  | error fault => rfl
  | ok gathered =>
    obtain ⟨steps, hsteps⟩ := Snapshot.gather_eq_ok_iff.1 hgather
    obtain rfl : gathered.container = c := by
      rw [hsteps.rest.1]
      exact Except.ok.inj (hsteps.container.symm.trans hparse)
    exact h

/-- No dump, however large its numbers are, leads to a number that does not fit 64 bits or to a
place outside of what it is taken from: not when it is parsed, not when anything is asked of it, and
not when the memory of what was loaded is read. A load meets a trap exactly if it gets to a line of
the memory maps whose path the library cannot cut. -/
theorem decoding_traps_exact {data : Buffer} (hsmall : data.size < 2 ^ 63) :
    parse data = pass (Container.parse data) ∧
    (∀ c, Container.parse data = .ok c → Untrapped c) ∧
    ∀ disk options, (∀ library : Library,
        (∀ c, Container.parse data = .ok c → library.Serves disk c) →
        load library data options disk =
          if Snapshot.halts data options disk then trap .outside
          else pass (Snapshot.load data options disk)) ∧
      (Snapshot.halts data options disk = true ↔ ∃ gathered text,
        Snapshot.gather data options disk = .ok gathered ∧
        gathered.container.text? StreamKind.linuxMaps.tag = some text ∧
        ∃ line : MapsLine, line.text ∈ Text.lines text.toList ∧ MapsEntry.Stops line) ∧
      ∀ s, Snapshot.load data options disk = .ok s →
        ∀ a length, read s.memory a length = .ok (s.memory.read a length) := by
  refine ⟨parse_eq hsmall, ?_, ?_⟩
  · intro c hparse
    exact (holdable_of_parse hsmall hparse).untrapped
  · intro disk options
    refine ⟨fun library hserves => load_eq hsmall hserves options, halts_iff, ?_⟩
    intro s hload
    exact read_eq (reachable_of_load hload)

/-- A library that cuts the paths of memory maps at bytes, and otherwise reads as it is written
here. -/
def Library.plain : Library where
  objectFile data := .ok (ObjectFile.parse data)
  mapsLine := Machine.mapsLine
  processId text := .ok (ProcessStatus.processId? text)

theorem Library.plain_serves (disk : Disk) (c : Container) : plain.Serves disk c :=
  ⟨fun _ _ _ => rfl, fun _ _ line _ => mapsLine_eq line, fun _ _ => rfl⟩

/-- A dump with the memory maps of a process and nothing else. -/
def mapsOnly (text : String) : Buffer :=
  let bytes := text.toUTF8.data.toList
  let header : Header := ⟨Container.signature, 0, 2, 32, 0, 0, 0⟩
  let directory : List DirectoryEntry := [⟨StreamKind.systemInfo.tag, 56, 56⟩,
    ⟨StreamKind.linuxMaps.tag, UInt32.ofNat bytes.length, 112⟩]
  let system : SystemInfo := ⟨9, 0, 0, 1, 0, 0, 0, 0, 0x8201, 0, 0, 0, Vector.replicate 24 0⟩
  Buffer.ofBytes
    (Record.write header ++ directory.flatMap Record.write ++ Record.write system ++ bytes)

theorem size_mapsOnly (text : String) :
    (mapsOnly text).size = 112 + Utf8.size text.toList := by
  rw [Utf8.size_toUTF8]
  simp only [mapsOnly, Buffer.ofBytes, ByteArray.size, List.size_toArray, List.length_append]
  rfl

theorem size_mapsOnly_lt {text : String} (h : Utf8.size text.toList < 2 ^ 62) :
    (mapsOnly text).size < 2 ^ 63 := by
  rw [size_mapsOnly]
  omega

theorem load_mapsOnly : ∃ c s, Container.parse (mapsOnly "1000-2000 r-xp 0 0:0 0 /a") = .ok c ∧
    c.text? StreamKind.linuxMaps.tag = some "1000-2000 r-xp 0 0:0 0 /a" ∧
    Snapshot.load (mapsOnly "1000-2000 r-xp 0 0:0 0 /a") .standard Snapshot.noFiles = .ok s ∧
    s.regions.mappings = [⟨⟨⟨0x1000⟩, ⟨0x2000⟩⟩, ⟨true, false, true⟩, some "/a"⟩] := by
  have htext : (Container.parse (mapsOnly "1000-2000 r-xp 0 0:0 0 /a")).toOption.map (fun c =>
      c.text? StreamKind.linuxMaps.tag) = some (some "1000-2000 r-xp 0 0:0 0 /a") := by
    decide +kernel
  have hload : (Snapshot.load (mapsOnly "1000-2000 r-xp 0 0:0 0 /a") .standard
      Snapshot.noFiles).toOption.map (fun s => s.regions.mappings) =
      some [⟨⟨⟨0x1000⟩, ⟨0x2000⟩⟩, ⟨true, false, true⟩, some "/a"⟩] := by
    decide +kernel
  obtain ⟨c, hc, htext⟩ := exists_ok_of_map htext
  obtain ⟨s, hs, hmappings⟩ := exists_ok_of_map hload
  exact ⟨c, s, hc, htext, hs, hmappings⟩

/-- The key of the segment has two digits and should have eight. -/
theorem halts_mapsOnly : Snapshot.halts (mapsOnly "1000-2000 rw-s 0 0:1 5 /SYSV12") .standard
    Snapshot.noFiles = true := by
  have htext : (Snapshot.gather (mapsOnly "1000-2000 rw-s 0 0:1 5 /SYSV12") .standard
      Snapshot.noFiles).toOption.map (fun gathered =>
        gathered.container.text? StreamKind.linuxMaps.tag) =
      some (some "1000-2000 rw-s 0 0:1 5 /SYSV12") := by
    decide +kernel
  have hline : MapsEntry.haltsIn "1000-2000 rw-s 0 0:1 5 /SYSV12" = true := by decide +kernel
  obtain ⟨gathered, hgather, htext⟩ := exists_ok_of_map htext
  rw [Snapshot.halts, hgather, Except.toOption, Option.any_some, htext, Option.any_some, hline]

theorem halts_called : Snapshot.halts Snapshot.called .standard Snapshot.noFiles = false := by
  have htext : (Container.parse Snapshot.called).toOption.map (fun c =>
      c.text? StreamKind.linuxMaps.tag) = some none := by
    decide +kernel
  obtain ⟨c, hc, htext⟩ := exists_ok_of_map htext
  exact halts_eq_false hc (by rw [htext, Option.any_none])

/-- A dump with a text that the library can read, one with a line at which it stops, and one with
words of memory and a frame. -/
theorem decoding_traps_exact_maps :
    (∃ data c s, data = mapsOnly "1000-2000 r-xp 0 0:0 0 /a" ∧ data.size < 2 ^ 63 ∧
      Library.plain.Serves Snapshot.noFiles c ∧ Untrapped c ∧ parse data = pass (.ok c) ∧
      c.text? StreamKind.linuxMaps.tag = some "1000-2000 r-xp 0 0:0 0 /a" ∧
      load .plain data .standard Snapshot.noFiles = pass (.ok s) ∧
      s.regions.mappings = [⟨⟨⟨0x1000⟩, ⟨0x2000⟩⟩, ⟨true, false, true⟩, some "/a"⟩]) ∧
    (∃ data, data = mapsOnly "1000-2000 rw-s 0 0:1 5 /SYSV12" ∧ data.size < 2 ^ 63 ∧
      load .plain data .standard Snapshot.noFiles = trap .outside ∧
      ∃ gathered text, Snapshot.gather data .standard Snapshot.noFiles = .ok gathered ∧
        gathered.container.text? StreamKind.linuxMaps.tag = some text ∧
        ∃ line : MapsLine, line.text ∈ Text.lines text.toList ∧ MapsEntry.Stops line) ∧
    ∃ s, Snapshot.called.size < 2 ^ 63 ∧
      load .plain Snapshot.called .standard Snapshot.noFiles = pass (.ok s) ∧
      read s.memory ⟨0x1000⟩ 8 = .ok (s.memory.read ⟨0x1000⟩ 8) := by
  have hserves : ∀ {data : Buffer}, ∀ c, Container.parse data = .ok c →
      Library.plain.Serves Snapshot.noFiles c := fun c _ => Library.plain_serves _ c
  refine ⟨?_, ?_, ?_⟩
  · have hsmall : (mapsOnly "1000-2000 r-xp 0 0:0 0 /a").size < 2 ^ 63 :=
      size_mapsOnly_lt (by decide)
    obtain ⟨c, s, hc, htext, hs, hmappings⟩ := load_mapsOnly
    have hline : MapsEntry.haltsIn "1000-2000 r-xp 0 0:0 0 /a" = false := by decide +kernel
    have hreads : Snapshot.halts (mapsOnly "1000-2000 r-xp 0 0:0 0 /a") .standard
        Snapshot.noFiles = false := halts_eq_false hc (by rw [htext, Option.any_some, hline])
    obtain ⟨hparse, huntrapped, hload⟩ := decoding_traps_exact hsmall
    have hplain := (hload Snapshot.noFiles .standard).1 .plain hserves
    rw [hc] at hparse
    rw [hreads, hs] at hplain
    exact ⟨_, c, s, rfl, hsmall, Library.plain_serves _ _, huntrapped c hc, hparse, htext, hplain,
      hmappings⟩
  · have hsmall : (mapsOnly "1000-2000 rw-s 0 0:1 5 /SYSV12").size < 2 ^ 63 :=
      size_mapsOnly_lt (by decide)
    obtain ⟨hload, hhalts, _⟩ := (decoding_traps_exact hsmall).2.2 Snapshot.noFiles .standard
    have hplain := hload .plain hserves
    rw [halts_mapsOnly] at hplain
    exact ⟨_, rfl, hsmall, hplain, hhalts.1 halts_mapsOnly⟩
  · have hsmall : Snapshot.called.size < 2 ^ 63 := by decide +kernel
    obtain ⟨s, _, _, hs, _⟩ := Snapshot.load_called
    obtain ⟨hload, _, hread⟩ := (decoding_traps_exact hsmall).2.2 Snapshot.noFiles .standard
    have hplain := hload .plain hserves
    rw [halts_called, hs] at hplain
    exact ⟨s, hsmall, hplain, hread s hs ⟨0x1000⟩ 8⟩

/-- Not every dump is loaded without a trap. -/
theorem exists_load_trap : ∃ data : Buffer, data = mapsOnly "1000-2000 rw-s 0 0:1 5 /SYSV12" ∧
    data.size < 2 ^ 63 ∧
    (∀ c, Container.parse data = .ok c → Library.plain.Serves Snapshot.noFiles c) ∧
    load .plain data .standard Snapshot.noFiles = trap .outside := by
  have hsmall : (mapsOnly "1000-2000 rw-s 0 0:1 5 /SYSV12").size < 2 ^ 63 :=
    size_mapsOnly_lt (by decide)
  have hserves : ∀ c, Container.parse (mapsOnly "1000-2000 rw-s 0 0:1 5 /SYSV12") = .ok c →
      Library.plain.Serves Snapshot.noFiles c := fun c _ => Library.plain_serves _ c
  refine ⟨_, rfl, hsmall, hserves, ?_⟩
  rw [load_eq hsmall hserves .standard, halts_mapsOnly, if_pos rfl]

end CrashDump.Machine

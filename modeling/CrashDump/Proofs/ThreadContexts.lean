import CrashDump.Proofs.FrameRegisters
import CrashDump.Proofs.RegisterReads
import CrashDump.Proofs.Reports

/-!
# Threads and their contexts

A snapshot has a thread for each thread record of its dump. The registers of a thread are the bytes
that the exception of the dump or the record points at, if they are as many as their layout asks
for. A thread without registers is reported, and every question about its registers is refused.
-/
namespace CrashDump

theorem ThreadRecord.stackRange?_eq_some_iff {record : ThreadRecord} {range : Interval} :
    record.stackRange? = some range ↔ record.stack.location.size ≠ 0 ∧
      range.start = ⟨record.stack.start⟩ ∧
      range.stop.toNat = record.stack.start.toNat + record.stack.location.size.toNat := by
  rw [stackRange?, Option.ite_none_left_eq_some, Interval.ofLength?_eq_some_iff]
  rfl

theorem ThreadRecord.stackRange?_eq_none_iff {record : ThreadRecord} :
    record.stackRange? = none ↔ record.stack.location.size = 0 ∨
      2 ^ 64 ≤ record.stack.start.toNat + record.stack.location.size.toNat := by
  unfold stackRange?
  split
  · next hsize => simp [hsize]
  · next hsize =>
    simp only [hsize, false_or, Interval.ofLength?, Option.map_eq_none_iff, Address.add?,
      ite_eq_right_iff, reduceCtorEq, imp_false]
    exact Nat.not_lt

namespace Thread

variable {c : Container} {tag : UInt16} {platform : Platform} {id : UInt32} {location : Location}
  {registers : Option RegisterBank} {reports : List Diagnostic} {record : ThreadRecord}
  {exception : Option ExceptionStream} {thread : Thread}

/-- Where the context of a thread is: in the exception, if that is of the thread and has a context,
or else in the record of the thread. -/
def HasContext (exception : Option ExceptionStream) (record : ThreadRecord)
    (location : Location) : Prop :=
  (∃ stream, exception = some stream ∧ stream.threadId = record.id ∧ stream.context.size ≠ 0 ∧
      location = stream.context) ∨
    ((∀ stream, exception = some stream → stream.threadId = record.id → stream.context.size = 0) ∧
      location = record.context)

/-- The registers that the bytes of a dump at a location are: none if there are no bytes or fewer
than the layout asks for that they select. -/
def HasRegisters (data : Buffer) (tag : UInt16) (platform : Platform) (location : Location)
    (registers : Option RegisterBank) : Prop :=
  (location.size = 0 ∧ registers = none) ∨
    ∃ context layout, location.size ≠ 0 ∧
      data.slice? location.offset.toNat location.size.toNat = some context ∧
      RegisterLayout.select tag platform context = .ok layout ∧
      registers = if layout.contextSize ≤ context.size then some ⟨layout, context⟩ else none

theorem HasContext.eq_of_none (h : HasContext none record location) :
    location = record.context := by
  rcases h with ⟨_, hstream, _⟩ | ⟨_, hlocation⟩
  · exact absurd hstream.symm (Option.some_ne_none _)
  · exact hlocation

theorem HasRegisters.eq_none {data : Buffer}
    (h : HasRegisters data tag platform location registers) (hsize : location.size = 0) :
    registers = none := by
  rcases h with ⟨_, hnone⟩ | ⟨_, _, hne, _⟩
  · exact hnone
  · exact absurd hsize hne

/-- Registers are bytes of the dump that are enough for the layout they select. -/
theorem HasRegisters.of_some {data : Buffer} {bank : RegisterBank}
    (h : HasRegisters data tag platform location (some bank)) :
    data.slice? location.offset.toNat location.size.toNat = some bank.context ∧
      RegisterLayout.select tag platform bank.context = .ok bank.layout ∧
      bank.layout.contextSize ≤ bank.context.size := by
  rcases h with ⟨_, hnone⟩ | ⟨context, layout, _, hcontext, hlayout, hbank⟩
  · exact absurd hnone (Option.some_ne_none bank)
  · split at hbank
    · next hlong =>
      obtain rfl := Option.some.inj hbank
      exact ⟨hcontext, hlayout, hlong⟩
    · exact absurd hbank (Option.some_ne_none bank)

theorem hasContext_contextLocation (exception : Option ExceptionStream) (record : ThreadRecord) :
    HasContext exception record (contextLocation exception record) := by
  unfold contextLocation
  cases hown : exceptionOf exception record with
  | none =>
    refine .inr ⟨fun stream hstream hid => ?_, rfl⟩
    simp [exceptionOf, hstream, hid] at hown
  | some stream =>
    obtain ⟨hstream, hid⟩ := Option.filter_eq_some_iff.1 hown
    have hid := eq_of_beq hid
    by_cases hsize : stream.context.size = 0
    · refine .inr ⟨fun other hother _ => ?_, by simp [hsize]⟩
      rw [hstream, Option.some.injEq] at hother
      exact hother ▸ hsize
    · exact .inl ⟨stream, hstream, hid, hsize, by simp [hsize]⟩

theorem hasRegisters_of_registersAt {architecture : Architecture}
    (htag : Architecture.ofTag? tag = some architecture)
    (h : registersAt c tag platform id location = .ok (registers, reports)) :
    HasRegisters c.data tag platform location registers ∧
      ((registers.isSome = true ∧ reports = []) ∨
        registers = none ∧ ∃ reason, reports = [.unusableContext id reason]) := by
  unfold registersAt at h
  split at h
  · next hsize =>
    obtain ⟨rfl, rfl⟩ := Prod.mk.inj (Except.ok.inj h)
    exact ⟨.inl ⟨hsize, rfl⟩, .inr ⟨rfl, _, rfl⟩⟩
  · next hsize =>
    obtain ⟨context, hcontext, h⟩ := bind_eq_ok.1 h
    rw [Malformed.lift_eq_ok, Container.located_eq_ok_iff] at hcontext
    obtain ⟨layout, hlayout⟩ := RegisterLayout.exists_select htag platform context
    by_cases hlong : layout.contextSize ≤ context.size
    · have hbank : RegisterBank.ofContext tag platform context = .ok ⟨layout, context⟩ :=
        RegisterBank.ofContext_eq_ok_iff.2 ⟨hlayout, rfl, hlong⟩
      rw [hbank] at h
      obtain ⟨rfl, rfl⟩ := Prod.mk.inj (Except.ok.inj h)
      exact ⟨.inr ⟨context, layout, hsize, hcontext, hlayout, (if_pos hlong).symm⟩, .inl ⟨rfl, rfl⟩⟩
    · have hbank : RegisterBank.ofContext tag platform context =
          .error (.malformed (.contextTooShort layout.kind context.size layout.contextSize)) := by
        simp [RegisterBank.ofContext, hlayout, bind, Except.bind, Nat.lt_of_not_le hlong]
      rw [hbank] at h
      obtain ⟨rfl, rfl⟩ := Prod.mk.inj (Except.ok.inj h)
      exact ⟨.inr ⟨context, layout, hsize, hcontext, hlayout, (if_neg hlong).symm⟩,
        .inr ⟨rfl, _, rfl⟩⟩

theorem registersAt_of_slice {context : Buffer} {layout : RegisterLayout}
    (hsize : location.size ≠ 0)
    (hcontext : c.data.slice? location.offset.toNat location.size.toNat = some context)
    (hlayout : RegisterLayout.select tag platform context = .ok layout)
    (hlong : layout.contextSize ≤ context.size) :
    registersAt c tag platform id location = .ok (some ⟨layout, context⟩, []) := by
  have hbank : RegisterBank.ofContext tag platform context = .ok ⟨layout, context⟩ :=
    RegisterBank.ofContext_eq_ok_iff.2 ⟨hlayout, rfl, hlong⟩
  rw [registersAt, if_neg hsize]
  refine bind_eq_ok.2 ⟨context, ?_, by rw [hbank]⟩
  exact Malformed.lift_eq_ok.2 (Container.located_eq_ok_iff.2 hcontext)

/-- What a thread has from its record. -/
structure OfRecord (record : ThreadRecord) (thread : Thread) : Prop where
  id : thread.id = record.id
  suspendCount : thread.suspendCount = record.suspendCount
  teb : thread.teb = record.teb
  stack : thread.stack = record.stackRange?

theorem ofRecord_eq_ok {walk : StackWalk} {limit : Nat}
    (h : ofRecord c tag walk limit exception record = .ok (thread, reports)) :
    OfRecord record thread ∧
      registersAt c tag walk.platform record.id (contextLocation exception record) =
        .ok (thread.registers, reports) ∧
      (thread.registers = none → thread.frames = []) := by
  obtain ⟨⟨registers, found⟩, hregisters, h⟩ := bind_eq_ok.1 h
  obtain ⟨rfl, rfl⟩ := Prod.mk.inj (Except.ok.inj h)
  refine ⟨⟨rfl, rfl, rfl, rfl⟩, hregisters, ?_⟩
  rintro rfl
  rfl

end Thread

namespace Snapshot

variable {data : Buffer} {options : LoadOptions} {disk : Disk} {s : Snapshot} {steps : Steps}
  {thread : Thread} {record : ThreadRecord} {exception : Option ExceptionStream} {i : Nat}

theorem register_zero_of_none (hthread : s.thread i = .ok thread)
    (hnone : thread.registers = none) (name : String) :
    s.register i 0 name = .error (.registerUnavailable name 0) := by
  simp [register, Thread.bank, hthread, hnone, bind, Except.bind]

/-- The names of a layout read the bytes of a dump that they stand for in a context at a location,
in whatever case they are written, and other names nothing. -/
structure ReadsContext (s : Snapshot) (data : Buffer) (i : Nat) (location : Location)
    (layout : RegisterLayout) : Prop where
  within : ∀ entry ∈ layout.entries, entry.offset + entry.width ≤ location.size.toNat
  own : ∀ entry ∈ layout.entries, entry.SpelledBy entry.name
  listed : ∀ name value, s.register i 0 name = .ok value ↔
    ∃ entry ∈ layout.entries, entry.SpelledBy name ∧
      value = ⟨(data.bytes.drop (location.offset.toNat + entry.offset)).take entry.width⟩
  unlisted : ∀ name fault, s.register i 0 name = .error fault ↔
    (∀ entry ∈ layout.entries, ¬ entry.SpelledBy name) ∧ fault = .unknownRegister name

/-- The thread of the given number as its record and the exception of the dump describe it. -/
structure Describes (s : Snapshot) (data : Buffer) (tag : UInt16)
    (exception : Option ExceptionStream) (i : Nat) (record : ThreadRecord) (thread : Thread) :
    Prop where
  own : thread.id = record.id ∧ thread.suspendCount = record.suspendCount ∧
    thread.teb = record.teb
  stack_none : thread.stack = none ↔ record.stack.location.size = 0 ∨
    2 ^ 64 ≤ record.stack.start.toNat + record.stack.location.size.toNat
  stack_some : ∀ range, thread.stack = some range → range.start = ⟨record.stack.start⟩ ∧
    range.stop.toNat = record.stack.start.toNat + record.stack.location.size.toNat
  registers : ∃ location, Thread.HasContext exception record location ∧
    Thread.HasRegisters data tag s.platform location thread.registers ∧
    ∀ bank, thread.registers = some bank → s.ReadsContext data i location bank.layout
  without : thread.registers = none →
    (∃ reason, .unusableContext record.id reason ∈ s.diagnostics) ∧
    thread.frames = [] ∧ s.frames i = .ok [] ∧
    (∀ name, s.register i 0 name = .error (.registerUnavailable name 0)) ∧
    ∀ k, 1 ≤ k → ∀ name, s.register i k name = .error (.frameUnavailable i k)

/-- A slice of a context is one of the dump that the context is cut out of. -/
theorem sliceOf_of_slice? {bank : RegisterBank} {entry : RegisterEntry} {place size : Nat}
    (hcontext : data.slice? place size = some bank.context)
    (h : entry.offset + entry.width ≤ size) :
    bank.sliceOf entry = ⟨(data.bytes.drop (place + entry.offset)).take entry.width⟩ := by
  obtain ⟨_, hextract⟩ := Buffer.slice?_eq_some_iff.1 hcontext
  unfold RegisterBank.sliceOf
  rw [← hextract, Buffer.bytes_extract, List.drop_take, List.take_take, List.drop_drop,
    Nat.min_eq_left (by omega)]

theorem readsContext {tag : UInt16} {location : Location} {bank : RegisterBank}
    (hthread : s.thread i = .ok thread) (hbank : thread.registers = some bank)
    (h : Thread.HasRegisters data tag s.platform location thread.registers) :
    s.ReadsContext data i location bank.layout := by
  obtain ⟨hcontext, hlayout, hlong⟩ := Thread.HasRegisters.of_some (hbank ▸ h)
  have hfilled : bank.Filled := ⟨(RegisterLayout.select_spec hlayout).1, hlong⟩
  have hread : ∀ name, s.register i 0 name = bank.read name := fun _ => register_zero hthread hbank
  have hwithin : ∀ entry ∈ bank.layout.entries,
      entry.offset + entry.width ≤ location.size.toNat := fun entry hentry =>
    Buffer.size_of_slice? hcontext ▸ hfilled.within hentry
  refine ⟨hwithin, fun entry => RegisterLayout.spelledBy_name hfilled.layout, ?_, ?_⟩
  · intro name value
    rw [hread, hfilled.read_eq_ok_iff]
    refine exists_congr fun entry => and_congr_right fun hentry => ?_
    rw [sliceOf_of_slice? hcontext (hwithin entry hentry)]
  · intro name fault
    rw [hread, hfilled.read_eq_error_iff]

theorem systemInfo_of_systemInfoOf {c : Container} {system : SystemInfo}
    (h : systemInfoOf c = .ok system) : c.systemInfo = .ok (some system) := by
  obtain ⟨found, hfound, h⟩ := bind_eq_ok.1 h
  cases found with
  | none => simp at h
  | some info =>
    obtain rfl := Except.ok.inj h
    exact hfound

theorem ofTag?_of_architectureOf {tag : UInt16} {architecture : Architecture}
    (h : architectureOf tag = .ok architecture) : Architecture.ofTag? tag = some architecture := by
  unfold architectureOf at h
  split at h
  · next hfound => rw [hfound, Except.ok.inj h]
  · simp at h

namespace Steps.Lead

variable (lead : steps.Lead data options disk s)
include lead

theorem ofTag?_processor : Architecture.ofTag? steps.system.processor = some s.architecture :=
  ofTag?_of_architectureOf lead.architecture

theorem data_eq : steps.container.data = data := Container.data_of_parse lead.container

/-- Each thread record with the thread that it gives and the reports on that. -/
theorem forall₂_threads : List.Forall₂ (fun record (found : Thread × List Diagnostic) =>
      Thread.OfRecord record found.1 ∧
      Thread.HasRegisters data steps.system.processor s.platform
        (Thread.contextLocation steps.exception record) found.1.registers ∧
      (found.1.registers = none → found.1.frames = []) ∧
      ((found.1.registers.isSome = true ∧ found.2 = []) ∨
        found.1.registers = none ∧ ∃ reason, found.2 = [.unusableContext found.1.id reason]))
    steps.threadRecords steps.threads := by
  refine (forall₂_of_mapM lead.threads).imp fun record found h => ?_
  obtain ⟨hrecord, hregisters, hframes⟩ := Thread.ofRecord_eq_ok h
  obtain ⟨hhas, hreports⟩ := Thread.hasRegisters_of_registersAt lead.ofTag?_processor hregisters
  rw [lead.data_eq] at hhas
  rw [← hrecord.id] at hreports
  exact ⟨hrecord, hhas, hframes, hreports⟩

theorem length_threads : s.threads.length = steps.threadRecords.length := by
  rw [lead.rest.2.2.1, List.length_map, lead.forall₂_threads.length_eq]

theorem mem_diagnostics {found : Thread × List Diagnostic} {d : Diagnostic}
    (hfound : found ∈ steps.threads) (hd : d ∈ found.2) : d ∈ s.diagnostics := by
  rw [lead.rest.2.2.2, Steps.diagnostics]
  exact List.mem_append_right _ (List.mem_flatMap.2 ⟨found, hfound, hd⟩)

theorem describes (hrecord : steps.threadRecords[i]? = some record)
    (hthread : s.threads[i]? = some thread) :
    s.Describes data steps.system.processor steps.exception i record thread := by
  have hanswer := thread_eq_ok_iff.2 hthread
  rw [lead.rest.2.2.1, List.getElem?_map] at hthread
  obtain ⟨found, hfound, rfl⟩ := Option.map_eq_some_iff.1 hthread
  obtain ⟨hown, hregisters, hframes, hreports⟩ :=
    rel_of_forall₂ lead.forall₂_threads hrecord hfound
  refine ⟨⟨hown.id, hown.suspendCount, hown.teb⟩, ?_, ?_, ?_, ?_⟩
  · rw [hown.stack, ThreadRecord.stackRange?_eq_none_iff]
  · intro range hrange
    rw [hown.stack] at hrange
    exact (ThreadRecord.stackRange?_eq_some_iff.1 hrange).2
  · exact ⟨_, Thread.hasContext_contextLocation _ _, hregisters, fun bank hbank =>
      readsContext hanswer hbank hregisters⟩
  · intro hnone
    have hempty := hframes hnone
    rcases hreports with ⟨hsome, _⟩ | ⟨_, reason, hreason⟩
    · rw [hnone] at hsome
      exact Bool.noConfusion hsome
    · refine ⟨⟨reason, ?_⟩, hempty, ?_, register_zero_of_none hanswer hnone,
        fun k hk => register_of_beyond hanswer (by simp [hempty]) hk⟩
      · refine lead.mem_diagnostics (List.mem_of_getElem? hfound) ?_
        rw [hreason, hown.id]
        exact List.mem_singleton_self _
      · rw [frames, hanswer]
        exact congrArg Except.ok hempty

/-- The reports on the threads name those without registers. -/
theorem withoutContext_threads :
    (steps.threads.flatMap Prod.snd).filterMap Diagnostic.withoutContext? =
      (s.threads.filter fun thread => thread.registers.isNone).map Thread.id := by
  have hall := lead.forall₂_threads
  rw [lead.rest.2.2.1]
  generalize steps.threadRecords = records, steps.threads = found at hall
  induction hall with
  | nil => rfl
  | cons hfirst hrest ih =>
    obtain ⟨_, _, _, hsome | ⟨hnone, reason, hreason⟩⟩ := hfirst
    · simpa [List.filterMap_append, hsome.2, Option.isNone_eq_false_iff.2 hsome.1] using ih
    · simpa [List.filterMap_append, hreason, hnone, Diagnostic.withoutContext?] using ih

/-- What the steps before the threads report is about none of these. -/
theorem ofThread_eq_false : ∀ d ∈ duplicateReports steps.container ++
    missingReports steps.container ++ steps.moduleReports ++ steps.memoryReports ++
    steps.stackReports, d.ofThread = false := by
  intro d hd
  simp only [List.mem_append] at hd
  rcases hd with (((hd | hd) | hd) | hd) | hd
  · obtain ⟨_, _, rfl⟩ := mem_duplicateReports hd
    rfl
  · obtain ⟨_, rfl⟩ := mem_missingReports hd
    rfl
  · exact ModuleList.ofThread_of_ofContainer lead.modules d hd
  · obtain ⟨_, _, rfl⟩ := Captured.mem_reports_of_assemble lead.captured hd
    rfl
  · obtain ⟨_, _, _, _, rfl⟩ := Captured.mem_reports_of_withStacks lead.memory hd
    rfl

/-- Only threads are reported to have no registers, each once and in order. -/
theorem withoutContext_eq : s.diagnostics.filterMap Diagnostic.withoutContext? =
    (s.threads.filter fun thread => thread.registers.isNone).map Thread.id := by
  have hbefore := fun d hd => Diagnostic.withoutContext?_eq_none (lead.ofThread_eq_false d hd)
  have hstray : ∀ d ∈ strayReports steps.exception steps.threadRecords,
      d.withoutContext? = none := by
    intro d hd
    obtain ⟨_, rfl⟩ := mem_strayReports hd
    rfl
  rw [lead.rest.2.2.2, Steps.diagnostics, List.filterMap_append, List.filterMap_append,
    List.filterMap_eq_nil_iff.2 hbefore, List.filterMap_eq_nil_iff.2 hstray, List.nil_append,
    List.nil_append, lead.withoutContext_threads]

end Steps.Lead

/-- Each thread record of a dump gives one thread, in order, with the context that the exception or
the record points at. The threads without registers are those reported, once each and in order. -/
theorem threads_exact (h : load data options disk = .ok s) :
    ∃ c system exception records, Container.parse data = .ok c ∧
      c.systemInfo = .ok (some system) ∧ c.exception = .ok exception ∧ c.threads = .ok records ∧
      s.platform = Platform.ofId system.platform ∧ s.threads.length = records.length ∧
      (∀ (i : Nat) record thread, records[i]? = some record → s.threads[i]? = some thread →
        s.Describes data system.processor exception i record thread) ∧
      s.diagnostics.filterMap Diagnostic.withoutContext? =
        (s.threads.filter fun thread => thread.registers.isNone).map Thread.id := by
  obtain ⟨steps, lead⟩ := exists_steps h
  exact ⟨steps.container, steps.system, steps.exception, steps.threadRecords, lead.container,
    systemInfo_of_systemInfoOf lead.system, lead.exception, lead.threadRecords, lead.platform,
    lead.length_threads,
    fun i record thread => lead.describes, lead.withoutContext_eq⟩

/-- A thread whose record points at a context and one without any. -/
theorem threads_exact_called :
    (∃ s thread bank, load called .standard noFiles = .ok s ∧ s.threads = [thread] ∧
      thread.registers = some bank ∧ bank.layout = Arm.standard ∧
      s.register 0 0 "Pc" = .ok ⟨[0x00, 0x81, 0x00, 0x00]⟩ ∧
      s.register 0 0 "EAX" = .error (.unknownRegister "EAX")) ∧
    ∃ s thread, load sample .standard noFiles = .ok s ∧ s.threads = [thread] ∧ thread.id = 1 ∧
      thread.stack = some ⟨⟨0x1004⟩, ⟨0x1007⟩⟩ ∧ s.frames 0 = .ok [] ∧
      s.register 0 0 "pc" = .error (.registerUnavailable "pc" 0) ∧
      s.register 0 1 "pc" = .error (.frameUnavailable 0 1) ∧
      s.diagnostics.filterMap Diagnostic.withoutContext? = [1] := by
  constructor
  · obtain ⟨s, thread, bank, hs, hmem, hbank, _⟩ := load_called
    obtain ⟨c, system, exception, records, hc, hsystem, hexception, hrecords, hplatform, hlength,
      hdescribes, _⟩ := threads_exact hs
    have hstreams : (Container.parse called).toOption.map (fun c =>
        (c.systemInfo.toOption.map fun info => info.map fun info => (info.processor, info.platform),
          c.exception.toOption.map Option.isNone, c.threads.toOption)) =
        some (some (some (5, 0x8201)), some true,
          some [⟨1, 0, 0, 0, 0, ⟨0x1000, 8, 164⟩, ⟨368, 172⟩⟩]) := by
      decide +kernel
    simp only [hc, hsystem, hexception, hrecords, Except.toOption, Option.map_some,
      Option.some.injEq, Prod.mk.injEq, Option.isNone_iff_eq_none] at hstreams
    obtain ⟨⟨hprocessor, hid⟩, rfl, rfl⟩ := hstreams
    obtain ⟨other, hthreads⟩ := List.length_eq_one_iff.1 hlength
    obtain rfl : thread = other := by simpa [hthreads] using hmem
    obtain ⟨location, hlocation, hregisters, hreads⟩ :=
      (hdescribes 0 _ thread rfl (by rw [hthreads]; rfl)).registers
    obtain rfl := hlocation.eq_of_none
    have hlayout : bank.layout = Arm.standard := by
      rw [hprocessor, hplatform, hid, hbank] at hregisters
      exact (Except.ok.inj hregisters.of_some.2.1).symm
    have hreads := hlayout ▸ hreads bank hbank
    refine ⟨s, thread, bank, hs, hthreads, hbank, hlayout, (hreads.listed _ _).2 ?_,
      (hreads.unlisted _ _).2 ⟨by decide +kernel, rfl⟩⟩
    exact ⟨⟨"pc", 64, 4, .general, false⟩, by decide +kernel, by decide, by decide +kernel⟩
  · obtain ⟨s, hs, _⟩ := load_sample
    obtain ⟨c, _, exception, records, hc, _, hexception, hrecords, _, hlength, hdescribes,
      hreports⟩ := threads_exact hs
    have hstreams : (Container.parse sample).toOption.map (fun c =>
        (c.exception.toOption.map Option.isNone, c.threads.toOption)) =
        some (some true, some [⟨1, 0, 0, 0, 0, ⟨0x1004, 3, 276⟩, ⟨0, 0⟩⟩]) := by
      decide +kernel
    simp only [hc, hexception, hrecords, Except.toOption, Option.map_some, Option.some.injEq,
      Prod.mk.injEq, Option.isNone_iff_eq_none] at hstreams
    obtain ⟨rfl, rfl⟩ := hstreams
    obtain ⟨thread, hthreads⟩ := List.length_eq_one_iff.1 hlength
    have hdescribed := hdescribes 0 _ thread rfl (by rw [hthreads]; rfl)
    have hnone : thread.registers = none := by
      obtain ⟨location, hlocation, hregisters, _⟩ := hdescribed.registers
      obtain rfl := hlocation.eq_of_none
      exact hregisters.eq_none rfl
    obtain ⟨_, _, hframes, hzero, houter⟩ := hdescribed.without hnone
    refine ⟨s, thread, hs, hthreads, hdescribed.own.1, ?_, hframes, hzero "pc",
      houter 1 (Nat.le_refl 1) "pc", ?_⟩
    · cases hstack : thread.stack with
      | none => exact absurd (hdescribed.stack_none.1 hstack) (by decide)
      | some range =>
        obtain ⟨hstart, hstop⟩ := hdescribed.stack_some range hstack
        have hend : range.stop = ⟨0x1007⟩ := Address.ext_toNat hstop
        rw [← hend, ← hstart]
    · rw [hreports, hthreads]
      simp [hnone, hdescribed.own.1]

end Snapshot
end CrashDump

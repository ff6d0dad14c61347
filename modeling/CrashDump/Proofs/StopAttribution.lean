import CrashDump.Proofs.ThreadContexts

/-!
# Which thread crashed

The exception of a dump is that of the threads whose number it names, and every other thread stopped
because the dump was written. A code that asks for a dump makes no thread a crashed one, and an
exception of a thread that is not listed is reported.
-/
namespace CrashDump

namespace ThreadStop

variable {platform : Platform} {record : ExceptionRecord} {exception : Option ExceptionStream}
  {id : UInt32}

theorem ofException_requested (h : record.code = requested) :
    ofException platform record = quiet := if_pos h

/-- On every platform each code but the one that asks for a dump is a crash. -/
theorem isCrash_ofException : (ofException platform record).isCrash = true ↔
    record.code ≠ requested := by
  by_cases h : record.code = requested
  · rw [ofException_requested h]
    simp [h, isCrash, quiet]
  · refine iff_of_true ?_ h
    cases platform with
    | windows =>
      simp only [ofException, if_neg h, ofWindows]
      split
      · rfl
      · rfl
    | macos | ios => simp [ofException, h, isCrash, ofMach]
    | linux | android | solaris | fuchsia | unknown =>
      simp only [ofException, if_neg h, ofSignal]
      split
      · rfl
      · rfl

/-- The stop of the thread with a number, which the exception may be of. -/
def attributed (platform : Platform) (exception : Option ExceptionStream) (id : UInt32) :
    ThreadStop :=
  match exception.filter fun stream => stream.threadId == id with
  | some stream => ofException platform stream.record
  | none => quiet

theorem attributed_of_eq {stream : ExceptionStream} (h : stream.threadId = id) :
    attributed platform (some stream) id = ofException platform stream.record := by
  simp [attributed, Option.filter, h]

theorem attributed_of_ne {stream : ExceptionStream} (h : stream.threadId ≠ id) :
    attributed platform (some stream) id = quiet := by
  simp [attributed, Option.filter, h]

theorem isCrash_attributed : (attributed platform exception id).isCrash = true ↔
    ∃ stream, exception = some stream ∧ id = stream.threadId ∧ stream.record.code ≠ requested := by
  cases exception with
  | none => simp [attributed, isCrash, quiet]
  | some stream =>
    simp only [Option.some.injEq, exists_eq_left']
    by_cases h : stream.threadId = id
    · rw [attributed_of_eq h, isCrash_ofException, h]
      simp
    · rw [attributed_of_ne h]
      simp [isCrash, quiet, Ne.symm h]

theorem attributed_eq_quiet (h : (attributed platform exception id).isCrash = false) :
    attributed platform exception id = quiet := by
  cases exception with
  | none => rfl
  | some stream =>
    by_cases hid : stream.threadId = id
    · rw [attributed_of_eq hid] at h ⊢
      refine ofException_requested (not_not.1 fun hcode => ?_)
      rw [isCrash_ofException.2 hcode] at h
      exact Bool.noConfusion h
    · exact attributed_of_ne hid

end ThreadStop

theorem Container.exception_eq_none_iff {data : Buffer} {c : Container}
    {exception : Option ExceptionStream} (hc : parse data = .ok c)
    (h : c.exception = .ok exception) :
    exception = none ↔ c.has StreamKind.exception.tag = false := by
  rw [has_eq_isSome hc]
  unfold Container.exception at h
  cases hstream : c.stream? StreamKind.exception.tag with
  | none =>
    rw [hstream] at h
    simp [(Except.ok.inj h).symm]
  | some stream =>
    simp only [hstream] at h
    obtain ⟨found, _, rfl⟩ := map_eq_ok.1 h
    simp

theorem Thread.stop_eq_attributed {c : Container} {tag : UInt16} {walk : StackWalk} {limit : Nat}
    {exception : Option ExceptionStream} {record : ThreadRecord} {thread : Thread}
    {reports : List Diagnostic}
    (h : ofRecord c tag walk limit exception record = .ok (thread, reports)) :
    thread.stop = ThreadStop.attributed walk.platform exception thread.id := by
  obtain ⟨⟨registers, found⟩, _, h⟩ := bind_eq_ok.1 h
  obtain ⟨rfl, _⟩ := Prod.mk.inj (Except.ok.inj h)
  rfl

namespace Snapshot

variable {data : Buffer} {options : LoadOptions} {disk : Disk} {s : Snapshot} {steps : Steps}
  {thread : Thread} {i : Nat} {exception : Option ExceptionStream} {records : List ThreadRecord}

theorem crashedThread?_eq_some_iff : s.crashedThread? = some i ↔
    ∃ thread, s.threads[i]? = some thread ∧ thread.stop.isCrash = true ∧
      ∀ j < i, ∀ other, s.threads[j]? = some other → other.stop.isCrash = false := by
  rw [crashedThread?, List.findIdx?_eq_some_iff_getElem]
  constructor
  · rintro ⟨hi, hcrash, hbefore⟩
    refine ⟨_, List.getElem?_eq_getElem hi, hcrash, fun j hj other hother => ?_⟩
    obtain ⟨_, rfl⟩ := List.getElem?_eq_some_iff.1 hother
    exact Bool.eq_false_iff.2 (hbefore j hj)
  · rintro ⟨thread, hthread, hcrash, hbefore⟩
    obtain ⟨hi, rfl⟩ := List.getElem?_eq_some_iff.1 hthread
    refine ⟨hi, hcrash, fun j hj => Bool.eq_false_iff.1 ?_⟩
    exact hbefore j hj _ (List.getElem?_eq_getElem (Nat.lt_trans hj hi))

theorem crashedThread?_eq_none_iff :
    s.crashedThread? = none ↔ ∀ thread ∈ s.threads, thread.stop.isCrash = false :=
  List.findIdx?_eq_none_iff

/-- An exception is stray exactly if no record has its number. -/
theorem mem_strayReports_iff {id : UInt32} :
    .unknownExceptionThread id ∈ strayReports exception records ↔
      ∃ stream, exception = some stream ∧ stream.threadId = id ∧
        ∀ record ∈ records, record.id ≠ id := by
  cases exception with
  | none => simp [strayReports]
  | some stream =>
    by_cases hlisted : records.any fun record => record.id == stream.threadId
    · obtain ⟨record, hrecord, hid⟩ := List.any_eq_true.1 hlisted
      simp only [strayReports, hlisted, if_true, List.not_mem_nil, false_iff]
      rintro ⟨other, hother, rfl, hnone⟩
      obtain rfl := Option.some.inj hother
      exact hnone record hrecord (eq_of_beq hid)
    · have hnone : ∀ record ∈ records, record.id ≠ stream.threadId := by simpa using hlisted
      simp only [strayReports, if_neg hlisted, List.mem_singleton,
        Diagnostic.unknownExceptionThread.injEq, Option.some.injEq, exists_eq_left']
      constructor
      · rintro rfl
        exact ⟨rfl, hnone⟩
      · rintro ⟨rfl, _⟩
        rfl

theorem length_strayReports_le : (strayReports exception records).length ≤ 1 := by
  unfold strayReports
  split
  · exact Nat.zero_le 1
  · split
    · exact Nat.zero_le 1
    · exact Nat.le_refl 1

namespace Steps.Lead

variable (lead : steps.Lead data options disk s)
include lead

theorem stop_eq (hthread : thread ∈ s.threads) :
    thread.stop = ThreadStop.attributed s.platform steps.exception thread.id := by
  rw [lead.rest.2.2.1, List.mem_map] at hthread
  obtain ⟨⟨_, _⟩, hmem, rfl⟩ := hthread
  obtain ⟨record, _, hrecord⟩ := exists_of_mem_mapM lead.threads hmem
  exact Thread.stop_eq_attributed hrecord

theorem isCrash_iff (hthread : thread ∈ s.threads) : thread.stop.isCrash = true ↔
    ∃ stream, steps.exception = some stream ∧ thread.id = stream.threadId ∧
      stream.record.code ≠ ThreadStop.requested := by
  rw [lead.stop_eq hthread, ThreadStop.isCrash_attributed]

theorem ids_eq : s.threads.map Thread.id = steps.threadRecords.map ThreadRecord.id := by
  have hall := lead.forall₂_threads
  rw [lead.rest.2.2.1]
  generalize steps.threadRecords = records, steps.threads = found at hall
  induction hall with
  | nil => rfl
  | cons hfirst _ ih => simp [ih, hfirst.1.id]

/-- Of all reports only one can say that the exception is stray. -/
theorem stray_eq : s.diagnostics.filterMap Diagnostic.stray? =
    (strayReports steps.exception steps.threadRecords).filterMap Diagnostic.stray? := by
  have hbefore := fun d hd => Diagnostic.stray?_eq_none (lead.ofThread_eq_false d hd)
  have hcontexts : ∀ d ∈ steps.threads.flatMap Prod.snd, d.stray? = none := by
    intro d hd
    obtain ⟨found, hfound, hd⟩ := List.mem_flatMap.1 hd
    obtain ⟨record, _, hrecord⟩ := exists_of_mem_mapM lead.threads hfound
    obtain ⟨_, hregisters, _⟩ := Thread.ofRecord_eq_ok hrecord
    rcases (Thread.hasRegisters_of_registersAt lead.ofTag?_processor hregisters).2 with
      ⟨_, hnone⟩ | ⟨_, reason, hreason⟩
    · simp [hnone] at hd
    · obtain rfl : d = .unusableContext record.id reason := by simpa [hreason] using hd
      rfl
  rw [lead.rest.2.2.2, Steps.diagnostics, List.filterMap_append, List.filterMap_append,
    List.filterMap_eq_nil_iff.2 hbefore, List.filterMap_eq_nil_iff.2 hcontexts, List.nil_append,
    List.append_nil]

theorem mem_diagnostics_stray_iff {id : UInt32} :
    .unknownExceptionThread id ∈ s.diagnostics ↔
      ∃ stream, steps.exception = some stream ∧ stream.threadId = id ∧
        ∀ record ∈ steps.threadRecords, record.id ≠ id := by
  have hmem : ∀ reports : List Diagnostic, .unknownExceptionThread id ∈ reports ↔
      id ∈ reports.filterMap Diagnostic.stray? := by
    intro reports
    simp [List.mem_filterMap, Diagnostic.stray?_eq_some_iff]
  rw [hmem, lead.stray_eq, ← hmem, mem_strayReports_iff]

/-- No thread crashed exactly if there is no exception, or it is no crash, or it is stray. -/
theorem crashedThread?_eq_none : s.crashedThread? = none ↔
    steps.exception = none ∨
      (∃ stream, steps.exception = some stream ∧ stream.record.code = ThreadStop.requested) ∨
      ∃ id, .unknownExceptionThread id ∈ s.diagnostics := by
  have hids : ∀ id, (∃ record ∈ steps.threadRecords, record.id = id) ↔
      ∃ thread ∈ s.threads, thread.id = id := by
    intro id
    rw [← List.mem_map, ← lead.ids_eq, List.mem_map]
  simp only [crashedThread?_eq_none_iff, lead.mem_diagnostics_stray_iff, ← Bool.not_eq_true]
  cases hexception : steps.exception with
  | none =>
    refine iff_of_true (fun thread hthread => ?_) (.inl rfl)
    rw [lead.isCrash_iff hthread, hexception]
    simp
  | some stream =>
    have hcrash : ∀ thread ∈ s.threads, (thread.stop.isCrash = true ↔
        thread.id = stream.threadId ∧ stream.record.code ≠ ThreadStop.requested) := by
      intro thread hthread
      rw [lead.isCrash_iff hthread, hexception]
      simp
    simp only [reduceCtorEq, Option.some.injEq, exists_eq_left', false_or]
    constructor
    · intro hnone
      by_cases hcode : stream.record.code = ThreadStop.requested
      · exact .inl hcode
      · refine .inr fun record hrecord hid => ?_
        obtain ⟨thread, hthread, hown⟩ := (hids stream.threadId).1 ⟨record, hrecord, hid⟩
        exact hnone thread hthread ((hcrash thread hthread).2 ⟨hown, hcode⟩)
    · rintro (hcode | hstray) thread hthread hthreadCrash
      · exact ((hcrash thread hthread).1 hthreadCrash).2 hcode
      · obtain ⟨record, hrecord, hid⟩ := (hids stream.threadId).2
          ⟨thread, hthread, ((hcrash thread hthread).1 hthreadCrash).1⟩
        exact hstray record hrecord hid

end Steps.Lead

/-- Exactly the threads that the exception names crashed, unless its code asks for a dump. The
exception is reported, once, if it names none of them, and the crashed thread is the first one. -/
theorem stops_exact (h : load data options disk = .ok s) :
    ∃ c exception records, Container.parse data = .ok c ∧ c.exception = .ok exception ∧
      c.threads = .ok records ∧ s.threads.map Thread.id = records.map ThreadRecord.id ∧
      (exception = none ↔ c.has StreamKind.exception.tag = false) ∧
      (exception = none → ∀ thread ∈ s.threads, thread.stop = ThreadStop.quiet) ∧
      (∀ stream, exception = some stream → ∀ thread ∈ s.threads,
        (thread.stop.isCrash = true ↔
          thread.id = stream.threadId ∧ stream.record.code ≠ 0xffffffff) ∧
        (thread.stop.isCrash = true →
          thread.stop = ThreadStop.ofException s.platform stream.record) ∧
        (thread.stop.isCrash = false → thread.stop = ThreadStop.quiet)) ∧
      (∀ id, .unknownExceptionThread id ∈ s.diagnostics ↔
        ∃ stream, exception = some stream ∧ stream.threadId = id ∧
          ∀ record ∈ records, record.id ≠ id) ∧
      (s.diagnostics.filterMap Diagnostic.stray?).length ≤ 1 ∧
      (∀ i, s.crashedThread? = some i ↔
        ∃ thread, s.threads[i]? = some thread ∧ thread.stop.isCrash = true ∧
          ∀ j < i, ∀ other, s.threads[j]? = some other → other.stop.isCrash = false) ∧
      (s.crashedThread? = none ↔ exception = none ∨
        (∃ stream, exception = some stream ∧ stream.record.code = 0xffffffff) ∨
        ∃ id, .unknownExceptionThread id ∈ s.diagnostics) := by
  obtain ⟨steps, lead⟩ := exists_steps h
  refine ⟨steps.container, steps.exception, steps.threadRecords, lead.container, lead.exception,
    lead.threadRecords, lead.ids_eq, Container.exception_eq_none_iff lead.container lead.exception,
    ?_, ?_, fun id => lead.mem_diagnostics_stray_iff, ?_, fun i => crashedThread?_eq_some_iff,
    lead.crashedThread?_eq_none⟩
  · intro hnone thread hthread
    rw [lead.stop_eq hthread, hnone]
    rfl
  · intro stream hstream thread hthread
    have hstop := lead.stop_eq hthread
    have hcrash := lead.isCrash_iff hthread
    simp only [hstream, Option.some.injEq, exists_eq_left'] at hstop hcrash
    refine ⟨hcrash, fun hyes => ?_, fun hno => ?_⟩
    · rw [hstop, ThreadStop.attributed_of_eq (hcrash.1 hyes).1.symm]
    · rw [hstop] at hno ⊢
      exact ThreadStop.attributed_eq_quiet hno
  · rw [lead.stray_eq]
    exact Nat.le_trans (List.length_filterMap_le _ _) length_strayReports_le

/-- A dump of two threads with an exception of the second one. -/
def crashed : Buffer :=
  let header : Header := ⟨Container.signature, 0, 3, 32, 0, 0, 0⟩
  let directory : List DirectoryEntry := [⟨StreamKind.systemInfo.tag, 56, 68⟩,
    ⟨StreamKind.threadList.tag, 100, 124⟩, ⟨StreamKind.exception.tag, 168, 224⟩]
  let system : SystemInfo := ⟨9, 0, 0, 1, 0, 0, 0, 0, 0x8201, 0, 0, 0, Vector.replicate 24 0⟩
  let threads : List ThreadRecord := [1, 2].map fun id =>
    ⟨id, 0, 0, 0, 0, ⟨0, 0, 0⟩, ⟨0, 0⟩⟩
  let exception : ExceptionStream := ⟨2, 0, ⟨11, 1, 0, 0xdead, 0, 0, Vector.replicate 15 0⟩, ⟨0, 0⟩⟩
  Buffer.ofBytes (Record.write header ++ directory.flatMap Record.write ++ Record.write system ++
    Record.write (2 : UInt32) ++ threads.flatMap Record.write ++ Record.write exception)

theorem stops_exact_crashed : ∃ (s : Snapshot) (first second : Thread) (stream : ExceptionStream),
    load crashed .standard noFiles = .ok s ∧ s.threads = [first, second] ∧
    first.stop = ThreadStop.quiet ∧
    second.stop = ThreadStop.ofException s.platform stream.record ∧ stream.threadId = second.id ∧
    s.crashedThread? = some 1 ∧ ∀ id, .unknownExceptionThread id ∉ s.diagnostics := by
  have hload : (load crashed .standard noFiles).toOption.map (fun s =>
      s.threads.map fun thread => thread.stop.isCrash) = some [false, true] := by
    decide +kernel
  obtain ⟨s, hs, hcrashes⟩ := exists_ok_of_map hload
  obtain ⟨first, second, hthreads, hno, hyes⟩ : ∃ first second, s.threads = [first, second] ∧
      first.stop.isCrash = false ∧ second.stop.isCrash = true := by
    simpa [List.map_eq_cons_iff] using hcrashes
  obtain ⟨c, exception, records, _, _, _, _, _, hnone, hstops, _, _, hfirst, hnobody⟩ :=
    stops_exact hs
  have hcrashed : s.crashedThread? = some 1 := by
    refine (hfirst 1).2 ⟨second, by simp [hthreads], hyes, fun j hj other hother => ?_⟩
    obtain rfl : j = 0 := by omega
    obtain rfl : first = other := by simpa [hthreads] using hother
    exact hno
  cases hexception : exception with
  | none =>
    have hquiet := hnone hexception second (by simp [hthreads])
    rw [hquiet] at hyes
    exact absurd hyes (by decide)
  | some stream =>
    obtain ⟨_, _, hquiet⟩ := hstops stream hexception first (by simp [hthreads])
    obtain ⟨hown, hreason, _⟩ := hstops stream hexception second (by simp [hthreads])
    refine ⟨s, first, second, stream, hs, hthreads, hquiet hno, hreason hyes, (hown.1 hyes).1.symm,
      hcrashed, fun id hid => ?_⟩
    rw [hnobody.2 (.inr (.inr ⟨id, hid⟩))] at hcrashed
    exact absurd hcrashed (by simp)

end Snapshot
end CrashDump

import CrashDump.Proofs.Loading
import CrashDump.Proofs.ModuleLookup

/-!
# What a load reports

Each step of a load has reports of its own kinds, so the reports of a snapshot tell which step they
are from. A step without reports has left nothing out.
-/
namespace CrashDump

namespace Diagnostic

/-- The thread that a report says has no registers. -/
def withoutContext? : Diagnostic → Option UInt32
  | unusableContext thread _ => some thread
  | _ => none

/-- The thread that a report says the exception names and no record does. -/
def stray? : Diagnostic → Option UInt32
  | unknownExceptionThread thread => some thread
  | _ => none

/-- Whether a report is about what the exception or the context of a thread is. -/
def ofThread : Diagnostic → Bool
  | unusableContext .. | unknownExceptionThread _ => true
  | _ => false

variable {d : Diagnostic}

theorem withoutContext?_eq_none (h : d.ofThread = false) : d.withoutContext? = none := by
  cases d with
  | unusableContext => exact Bool.noConfusion h
  | _ => rfl

theorem stray?_eq_none (h : d.ofThread = false) : d.stray? = none := by
  cases d with
  | unknownExceptionThread => exact Bool.noConfusion h
  | _ => rfl

theorem stray?_eq_some_iff {thread : UInt32} :
    d.stray? = some thread ↔ d = .unknownExceptionThread thread := by
  cases d with
  | unknownExceptionThread => simp [stray?]
  | _ => simp [stray?]

/-- Whether a report is about a file that was looked at as an image. -/
def OfImage (d : Diagnostic) : Prop :=
  (∃ name path, d = imageMismatch name path) ∨ ∃ path reason, d = imageUnreadable path reason

theorem OfImage.ofThread (h : d.OfImage) : d.ofThread = false := by
  rcases h with ⟨_, _, rfl⟩ | ⟨_, _, rfl⟩
  · rfl
  · rfl

end Diagnostic

namespace Image

variable {reader : Buffer → Except ObjectFault ObjectFile} {disk : Disk} {name path : String}
  {expected : Option (List UInt8)} {base : Address} {size : UInt64}

theorem ofImage_of_ofFileWith {report : Diagnostic}
    (h : ofFileWith reader disk name expected base size path = .error report) :
    report.OfImage := by
  unfold ofFileWith at h
  cases himage : parseWith reader disk path base size with
  | error fault =>
    obtain rfl : Diagnostic.imageUnreadable path fault.message = report := by
      simpa [himage] using h
    exact .inr ⟨_, _, rfl⟩
  | ok image =>
    simp only [himage] at h
    split at h
    · simp at h
    · exact .inl ⟨_, _, (Except.error.inj h).symm⟩

theorem ofImage_of_locateWith {directories : List String} {d : Diagnostic}
    (h : d ∈ (locateWith reader disk name expected base size directories).2) : d.OfImage := by
  induction directories with
  | nil => simp [locateWith] at h
  | cons directory rest ih =>
    unfold locateWith at h
    simp only at h
    split at h
    · cases hfile : ofFileWith reader disk name expected base size
          (FilePath.join directory name) with
      | ok image => simp [hfile] at h
      | error report =>
        simp only [hfile, List.mem_cons] at h
        cases h with
        | inl h => exact h ▸ ofImage_of_ofFileWith hfile
        | inr h => exact ih h
    · exact ih h

end Image

theorem Module.ofImage_of_ofRecord {c : Container} {disk : Disk} {directories : List String}
    {record : ModuleRecord} {m : Module} {reports : List Diagnostic}
    (h : ofRecord c disk directories record = .ok (m, reports)) : ∀ d ∈ reports, d.OfImage := by
  obtain ⟨path, _, h⟩ := bind_eq_ok.1 h
  obtain ⟨codeView, _, h⟩ := bind_eq_ok.1 h
  obtain ⟨_, rfl⟩ := Prod.mk.inj (Except.ok.inj h)
  intro d hd
  exact Image.ofImage_of_locateWith hd

namespace ModuleList

theorem mem_reports_of_keepFirst {seen : List String} {modules : List Module} {d : Diagnostic}
    (h : d ∈ (keepFirst seen modules).2) : ∃ m ∈ modules, d = .duplicateModule m.path m.base := by
  induction modules generalizing seen with
  | nil => simp [keepFirst] at h
  | cons m rest ih =>
    unfold keepFirst at h
    split at h
    · rcases List.mem_cons.1 h with h | h
      · exact ⟨m, List.mem_cons_self, h⟩
      · obtain ⟨n, hn, hd⟩ := ih h
        exact ⟨n, List.mem_cons_of_mem m hn, hd⟩
    · obtain ⟨n, hn, hd⟩ := ih h
      exact ⟨n, List.mem_cons_of_mem m hn, hd⟩

theorem keepFirst_eq_self {seen : List String} {modules : List Module}
    (h : (keepFirst seen modules).2 = []) : (keepFirst seen modules).1 = modules := by
  induction modules generalizing seen with
  | nil => rfl
  | cons m rest ih =>
    unfold keepFirst at h ⊢
    split
    · next hseen =>
      rw [if_pos hseen] at h
      exact absurd h (List.cons_ne_nil _ _)
    · next hseen =>
      rw [if_neg hseen] at h
      exact congrArg (m :: ·) (ih h)

variable {c : Container} {platform : Platform} {disk : Disk} {directories : List String}
  {list : ModuleList} {reports : List Diagnostic}

/-- The modules of a dump are those of its records, in order of their bases. Those left out for
being listed before are reported, as is every file that could not be used. -/
theorem ofContainer_eq_ok (h : ofContainer c platform disk directories = .ok (list, reports)) :
    ∃ records resolved repeats, c.modules = .ok records ∧
      records.mapM (Module.ofRecord c disk directories) = .ok resolved ∧
      reports = resolved.flatMap Prod.snd ++ repeats ∧
      (∀ d ∈ repeats, ∃ path base, d = .duplicateModule path base) ∧
      (repeats = [] → list.modules.Perm (resolved.map Prod.fst)) := by
  obtain ⟨records, resolved, hrecords, hresolved, hcases⟩ := ofContainer_cases h
  have hperm : (ofList (resolved.map Prod.fst)).modules.Perm (resolved.map Prod.fst) :=
    List.mergeSort_perm _ _
  rcases hcases with ⟨_, rfl, rfl⟩ | ⟨_, rfl, rfl⟩
  · refine ⟨records, resolved, _, hrecords, hresolved, rfl, ?_, ?_⟩
    · intro d hd
      obtain ⟨m, _, hm⟩ := mem_reports_of_keepFirst hd
      exact ⟨m.path, m.base, hm⟩
    · intro hnone
      change (keepFirst [] _).1.Perm _
      rw [keepFirst_eq_self hnone]
      exact hperm
  · exact ⟨records, resolved, [], hrecords, hresolved, (List.append_nil _).symm, by simp,
      fun _ => hperm⟩

theorem ofThread_of_ofContainer
    (h : ofContainer c platform disk directories = .ok (list, reports)) :
    ∀ d ∈ reports, d.ofThread = false := by
  obtain ⟨records, resolved, repeats, _, hresolved, rfl, hrepeats, _⟩ := ofContainer_eq_ok h
  intro d hd
  rcases List.mem_append.1 hd with hd | hd
  · obtain ⟨r, hr, hd⟩ := List.mem_flatMap.1 hd
    obtain ⟨record, _, hrecord⟩ := exists_of_mem_mapM hresolved hr
    exact (Module.ofImage_of_ofRecord hrecord d hd).ofThread
  · obtain ⟨_, _, rfl⟩ := hrepeats d hd
    rfl

end ModuleList

namespace Captured

variable {memory all : Captured} {dump : Buffer} {found reports : List Diagnostic}
  {c : Container} {d : Diagnostic}

theorem mem_reports_of_assemble {previous : Option Segment} {records : List MemoryRecord}
    (h : assemble dump memory previous records = .ok (all, found)) (hd : d ∈ found) :
    ∃ r ∈ records, d = .duplicateMemory r.range := by
  induction records generalizing memory previous found with
  | nil =>
    obtain ⟨_, rfl⟩ := Prod.mk.inj (Except.ok.inj h)
    simp at hd
  | cons record rest ih =>
    obtain ⟨segment, _, h⟩ := bind_eq_ok.1 h
    split at h
    · split at h
      · obtain ⟨⟨more, others⟩, hmore, h⟩ := bind_eq_ok.1 h
        obtain ⟨rfl, rfl⟩ := Prod.mk.inj (Except.ok.inj h)
        rcases List.mem_cons.1 hd with rfl | hd
        · exact ⟨record, List.mem_cons_self, rfl⟩
        · obtain ⟨r, hr, hrd⟩ := ih hmore hd
          exact ⟨r, List.mem_cons_of_mem record hr, hrd⟩
      · simp at h
    · obtain ⟨r, hr, hrd⟩ := ih h hd
      exact ⟨r, List.mem_cons_of_mem record hr, hrd⟩

theorem mem_reports_of_withStack {more : Captured} {record : ThreadRecord}
    (h : memory.withStack c record = .ok (more, reports)) (hd : d ∈ reports) :
    ∃ range, record.stackRange? = some range ∧ d = .overlappingStack record.id range := by
  unfold withStack at h
  split at h
  · obtain ⟨_, rfl⟩ := Prod.mk.inj (Except.ok.inj h)
    simp at hd
  · next range hrange =>
    split at h
    · obtain ⟨_, rfl⟩ := Prod.mk.inj (Except.ok.inj h)
      simp at hd
    · obtain ⟨bytes, _, h⟩ := bind_eq_ok.1 h
      split at h
      · obtain ⟨_, rfl⟩ := Prod.mk.inj (Except.ok.inj h)
        simp at hd
      · obtain ⟨_, rfl⟩ := Prod.mk.inj (Except.ok.inj h)
        exact ⟨range, hrange, List.mem_singleton.1 hd⟩

theorem mem_reports_of_withStacks {records : List ThreadRecord}
    (h : memory.withStacks c records = .ok (all, reports)) (hd : d ∈ reports) :
    ∃ record ∈ records, ∃ range, record.stackRange? = some range ∧
      d = .overlappingStack record.id range := by
  induction records generalizing memory reports with
  | nil =>
    obtain ⟨_, rfl⟩ := Prod.mk.inj (Except.ok.inj h)
    simp at hd
  | cons record rest ih =>
    obtain ⟨⟨more, first⟩, hfirst, h⟩ := bind_eq_ok.1 h
    obtain ⟨⟨whole, others⟩, hothers, h⟩ := bind_eq_ok.1 h
    obtain ⟨rfl, rfl⟩ := Prod.mk.inj (Except.ok.inj h)
    rcases List.mem_append.1 hd with hd | hd
    · exact ⟨record, List.mem_cons_self, mem_reports_of_withStack hfirst hd⟩
    · obtain ⟨other, hother, hrange⟩ := ih hothers hd
      exact ⟨other, List.mem_cons_of_mem record hother, hrange⟩

end Captured

namespace Snapshot

variable {c : Container} {d : Diagnostic} {exception : Option ExceptionStream}
  {records : List ThreadRecord}

theorem mem_duplicateReports (h : d ∈ duplicateReports c) :
    ∃ entry ∈ c.duplicates, d = .duplicateStream entry.kind entry.location.offset := by
  obtain ⟨entry, hentry, rfl⟩ := List.mem_map.1 h
  exact ⟨entry, hentry, rfl⟩

theorem mem_missingReports (h : d ∈ missingReports c) : ∃ kind, d = .missingStream (some kind) := by
  obtain ⟨kind, _, rfl⟩ := List.mem_map.1 h
  exact ⟨kind, rfl⟩

theorem mem_strayReports (h : d ∈ strayReports exception records) :
    ∃ thread, d = .unknownExceptionThread thread := by
  unfold strayReports at h
  split at h
  · simp at h
  · next stream =>
    split at h
    · simp at h
    · exact ⟨stream.threadId, List.mem_singleton.1 h⟩

theorem strayReports_eq_nil_iff : strayReports exception records = [] ↔
    ∀ stream, exception = some stream → ∃ record ∈ records, record.id = stream.threadId := by
  cases exception with
  | none => simp [strayReports]
  | some stream => simp [strayReports]

end Snapshot
end CrashDump

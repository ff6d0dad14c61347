import CrashDump.Proofs.FrameRegisters
import CrashDump.Proofs.RegisterReads

/-!
# Registers of outer frames

Of a frame beyond the first only the program counter, the stack pointer and the frame pointer are
known. A name reads one of them if it stands for the same bytes of a context, whatever the name. Any
other question is refused, and the refusal says what is missing: the thread, the frame, the name or
the value.
-/
namespace CrashDump

namespace RegisterLayout

variable {layout : RegisterLayout} {generic : String} {names : List String}
  {entry own : RegisterEntry} {tag : UInt16} {platform : Platform} {context : Buffer}

/-- The layout's register of the given name has the bytes of the entry. -/
def Covers (layout : RegisterLayout) (generic : String) (entry : RegisterEntry) : Prop :=
  ∃ own ∈ layout.entries, own.name = generic ∧ own.offset = entry.offset ∧ own.width = entry.width

instance (layout : RegisterLayout) (generic : String) (entry : RegisterEntry) :
    Decidable (layout.Covers generic entry) := by
  unfold Covers
  infer_instance

/-- The names of each frame register, those of the processor before the one it has everywhere. -/
def frameSpellings (architecture : Architecture) (platform : Platform) :
    List (String × List String) :=
  match architecture with
  | .amd64 => [("pc", ["rip", "pc"]), ("sp", ["rsp", "sp"]), ("fp", ["rbp", "fp"])]
  | .arm => [("pc", ["r15", "pc"]), ("sp", ["r13", "sp"]),
      ("fp", [if platform.isApple then "r7" else "r11", "fp"])]
  | .arm64 => [("pc", ["pc"]), ("sp", ["x31", "sp"]), ("fp", ["x29", "fp"])]

/-- The entries that show a frame register are those of the given names. -/
def SpellsFrames (layout : RegisterLayout) (spellings : List (String × List String)) : Prop :=
  ∀ spelling ∈ spellings, spelling.1 ∈ frameNames ∧ ∃ own ∈ layout.lookup? spelling.1,
    (layout.entries.filter own.sameSlice).map RegisterEntry.name = spelling.2

instance (layout : RegisterLayout) (spellings : List (String × List String)) :
    Decidable (layout.SpellsFrames spellings) := by
  unfold SpellsFrames
  infer_instance

theorem spellsFrames_all :
    Amd64.windows.SpellsFrames (frameSpellings .amd64 .windows) ∧
    Amd64.systemV.SpellsFrames (frameSpellings .amd64 .linux) ∧
    Arm.apple.SpellsFrames (frameSpellings .arm .macos) ∧
    Arm.standard.SpellsFrames (frameSpellings .arm .linux) ∧
    Arm64.packed.SpellsFrames (frameSpellings .arm64 .linux) ∧
    Arm64.aligned.SpellsFrames (frameSpellings .arm64 .linux) := by
  decide +kernel

/-- Of the platforms only Apple's differ, and those only on 32-bit ARM. -/
theorem spellsFrames_of_select (h : select tag platform context = .ok layout) :
    layout.SpellsFrames (frameSpellings layout.kind.architecture platform) := by
  obtain ⟨hwindows, hsystemV, happle, hstandard, hpacked, haligned⟩ := spellsFrames_all
  rcases select_eq_ok_iff.1 h with ⟨_, rfl⟩ | ⟨_, rfl⟩ | ⟨_, rfl⟩ | ⟨_, rfl⟩
  · split
    · exact hwindows
    · exact hsystemV
  · cases hplatform : platform.isApple with
    | true =>
      have hsame : frameSpellings .arm platform = frameSpellings .arm .macos := by
        rw [frameSpellings, hplatform]
        rfl
      exact hsame ▸ happle
    | false =>
      have hsame : frameSpellings .arm platform = frameSpellings .arm .linux := by
        rw [frameSpellings, hplatform]
        rfl
      exact hsame ▸ hstandard
  · exact hpacked
  · rcases layoutOf_eq context with heq | heq
    · exact heq ▸ hpacked
    · exact heq ▸ haligned

theorem toLower_frameName : ∀ generic ∈ frameNames, generic.toLower = generic := by
  decide +kernel

theorem covers_iff (h : layout ∈ all) (hgeneric : generic ∈ frameNames) :
    layout.Covers generic entry ↔
      ∃ own, layout.lookup? generic = some own ∧ own.sameSlice entry = true := by
  simp only [lookup?_eq_some_iff h, RegisterEntry.spelledBy_iff, toLower_frameName generic hgeneric,
    RegisterEntry.sameSlice_iff, Covers, and_assoc]

theorem covers_iff_mem (h : layout ∈ all) {spellings : List (String × List String)}
    (hspells : layout.SpellsFrames spellings) (hnames : (generic, names) ∈ spellings)
    (hentry : entry ∈ layout.entries) : layout.Covers generic entry ↔ entry.name ∈ names := by
  obtain ⟨hgeneric, own, hown, rfl⟩ := hspells _ hnames
  rw [covers_iff h hgeneric, hown]
  constructor
  · rintro ⟨_, hother, hsame⟩
    obtain rfl := Option.some.inj hother
    exact List.mem_map_of_mem (List.mem_filter.2 ⟨hentry, hsame⟩)
  · intro hname
    obtain ⟨other, hother, hname⟩ := List.mem_map.1 hname
    obtain ⟨hmem, hsame⟩ := List.mem_filter.1 hother
    rw [List.inj_on_of_nodup_map (nodup_names h) hmem hentry hname] at hsame
    exact ⟨own, rfl, hsame⟩

end RegisterLayout

namespace Snapshot

open RegisterLayout

variable {s : Snapshot} {thread : Thread} {bank : RegisterBank} {frame : Frame}
  {layout : RegisterLayout} {entry : RegisterEntry} {value : RegisterValue} {a : Address}
  {name generic : String} {t k : Nat}

/-- The part of a frame register that an entry of the same bytes shows. -/
def ShowsRecovered (layout : RegisterLayout) (frame : Frame) (entry : RegisterEntry)
    (value : RegisterValue) : Prop :=
  ∃ generic a, (generic, a) ∈ recovered frame ∧ layout.Covers generic entry ∧
    value = ⟨(LittleEndian.bytes 8 a.toNat).take entry.width⟩

theorem recoveredValue?_eq_some_iff (h : layout ∈ all) :
    recoveredValue? layout frame entry = some value ↔ ShowsRecovered layout frame entry value := by
  rw [recoveredValue?, Option.map_eq_some_iff]
  constructor
  · rintro ⟨⟨generic, a⟩, hknown, rfl⟩
    have hmem := List.mem_of_find?_eq_some hknown
    have hany := List.find?_some hknown
    have hsame := (Option.any_eq_true _ _).1 hany
    exact ⟨generic, a, hmem, (covers_iff h (mem_frameNames hmem)).2 hsame, rfl⟩
  · rintro ⟨generic, a, hmem, hcovers, rfl⟩
    obtain ⟨own, hown, hsame⟩ := (covers_iff h (mem_frameNames hmem)).1 hcovers
    have hvalue := recoveredValue?_of_sameSlice h hmem hown hsame
    rwa [recoveredValue?, Option.map_eq_some_iff] at hvalue

theorem exists_mem_recovered (hgeneric : generic ∈ frameNames) (frame : Frame) :
    ∃ a, (generic, a) ∈ recovered frame := by
  obtain ⟨⟨_, a⟩, hmem, rfl⟩ := List.mem_map.1
    (show generic ∈ (recovered frame).map Prod.fst from hgeneric)
  exact ⟨a, hmem⟩

theorem recoveredValue?_eq_none_iff (h : layout ∈ all) (frame : Frame) :
    recoveredValue? layout frame entry = none ↔
      ∀ generic ∈ frameNames, ¬ layout.Covers generic entry := by
  simp only [Option.eq_none_iff_forall_ne_some, ne_eq, recoveredValue?_eq_some_iff h]
  constructor
  · intro hnone generic hgeneric hcovers
    obtain ⟨a, hmem⟩ := exists_mem_recovered hgeneric frame
    exact hnone _ ⟨generic, a, hmem, hcovers, rfl⟩
  · rintro hnone _ ⟨generic, _, hmem, hcovers, _⟩
    exact hnone generic (mem_frameNames hmem) hcovers

/-- The answers to a question about a register of an outer frame. -/
structure OuterAnswer (s : Snapshot) (layout : RegisterLayout) (frame : Frame) (k : Nat)
    (name : String) (answer : Except SnapshotFault RegisterValue) : Prop where
  unknown : answer = .error (.unknownRegister name) ↔
    ∀ entry ∈ layout.entries, ¬ entry.SpelledBy name
  known : ∀ entry ∈ layout.entries, entry.SpelledBy name →
    (∀ value, answer = .ok value ↔ ShowsRecovered layout frame entry value) ∧
    (answer = .error (.registerUnavailable name k) ↔
      ∀ generic ∈ frameNames, ¬ layout.Covers generic entry)
  spelled : ∀ generic names, (generic, names) ∈ frameSpellings s.architecture s.platform →
    ∀ entry ∈ layout.entries, layout.Covers generic entry ↔ entry.name ∈ names

theorem thread_eq_error_iff {fault : SnapshotFault} :
    s.thread t = .error fault ↔ s.threads.length ≤ t ∧ fault = .threadNotFound t := by
  unfold Snapshot.thread
  cases hthread : s.threads[t]? with
  | none => simp [List.getElem?_eq_none_iff.1 hthread, eq_comm]
  | some thread => simp [Nat.not_le.2 (List.getElem?_eq_some_iff.1 hthread).1]

/-- The answers that are left where there is a frame. -/
theorem register_of_frame_cases (hthread : s.thread t = .ok thread)
    (hbank : thread.registers = some bank) (hframe : thread.frames[k]? = some frame) (hk : 1 ≤ k)
    (name : String) : s.register t k name = .error (.unknownRegister name) ∨
      (∃ value, s.register t k name = .ok value) ∨
      s.register t k name = .error (.registerUnavailable name k) := by
  rw [register_of_frame hthread hbank hframe hk]
  cases bank.layout.lookup? name with
  | none => exact .inl rfl
  | some entry =>
    right
    rw [Option.elim_some]
    cases recoveredValue? bank.layout frame entry with
    | none => exact .inr rfl
    | some value => exact .inl ⟨value, rfl⟩

theorem outerAnswer_of_frame {tag : UInt16} {context : Buffer} (hs : s.Suits bank)
    (hcontext : RegisterBank.ofContext tag s.platform context = .ok bank)
    (hthread : s.thread t = .ok thread) (hbank : thread.registers = some bank)
    (hframe : thread.frames[k]? = some frame) (hk : 1 ≤ k) (name : String) :
    s.OuterAnswer bank.layout frame k name (s.register t k name) := by
  have hlayout := hs.filled.layout
  have hspells := spellsFrames_of_select (RegisterBank.ofContext_eq_ok_iff.1 hcontext).1
  rw [show bank.layout.kind.architecture = s.architecture from hs.architecture] at hspells
  rw [register_of_frame hthread hbank hframe hk]
  refine ⟨?_, fun entry hentry hspelled => ?_,
    fun generic names hnames entry => covers_iff_mem hlayout hspells hnames⟩
  · rw [← lookup?_eq_none_iff]
    cases hlookup : bank.layout.lookup? name with
    | none => simp
    | some entry => cases hvalue : recoveredValue? bank.layout frame entry <;> simp [hvalue]
  · have hlookup := (lookup?_eq_some_iff hlayout).2 ⟨hentry, hspelled⟩
    simp only [hlookup, Option.elim_some, ← recoveredValue?_eq_some_iff hlayout,
      ← recoveredValue?_eq_none_iff hlayout frame]
    cases recoveredValue? bank.layout frame entry with
    | none => simp
    | some value => simp

theorem Steps.Lead.exists_suits {data : Buffer} {options : LoadOptions} {disk : Disk}
    {steps : Steps} (lead : steps.Lead data options disk s) (hthread : s.thread t = .ok thread)
    (hframe : thread.frames[k]? = some frame) : ∃ bank, thread.registers = some bank ∧
      s.Suits bank ∧ ∃ tag context, RegisterBank.ofContext tag s.platform context = .ok bank := by
  have hmem := List.mem_of_getElem? (thread_eq_ok_iff.1 hthread)
  obtain ⟨record, reports, hregisters, hframes⟩ := lead.exists_record hmem
  cases hbank : thread.registers with
  | none => simp [hframes, hbank] at hframe
  | some bank =>
    rw [hbank] at hregisters
    obtain ⟨context, hcontext⟩ := Thread.exists_ofContext_of_registersAt hregisters
    exact ⟨bank, rfl, lead.suits hmem hbank, _, context, hcontext⟩

/-- Each question about a register of an outer frame has one answer. The thread is looked for
first, then the frame, then the name, and last whether the frame knows the bytes of that name. -/
theorem outer_registers_exact {data : Buffer} {options : LoadOptions} {disk : Disk}
    (h : load data options disk = .ok s) (hk : 1 ≤ k) (t : Nat) (name : String) :
    (s.register t k name = .error (.threadNotFound t) ↔ s.threads.length ≤ t) ∧
    ∀ thread, s.thread t = .ok thread →
      (s.register t k name = .error (.frameUnavailable t k) ↔ thread.frames.length ≤ k) ∧
      ∀ frame, thread.frames[k]? = some frame → ∃ bank, thread.registers = some bank ∧
        bank.architecture = s.architecture ∧
        (∃ tag context, RegisterBank.ofContext tag s.platform context = .ok bank) ∧
        s.OuterAnswer bank.layout frame k name (s.register t k name) := by
  obtain ⟨steps, lead⟩ := exists_steps h
  cases hthread : s.thread t with
  | error fault =>
    obtain ⟨hle, rfl⟩ := thread_eq_error_iff.1 hthread
    have hanswer : s.register t k name = .error (.threadNotFound t) := by
      rw [register, hthread]
      rfl
    exact ⟨iff_of_true hanswer hle, fun thread hfound => by simp at hfound⟩
  | ok thread =>
    have hlt := (List.getElem?_eq_some_iff.1 (thread_eq_ok_iff.1 hthread)).1
    cases hframe : thread.frames[k]? with
    | none =>
      have hanswer := register_of_beyond hthread hframe hk name
      have hle := List.getElem?_eq_none_iff.1 hframe
      refine ⟨iff_of_false (by simp [hanswer]) (Nat.not_le.2 hlt), fun found hfound => ?_⟩
      obtain rfl := Except.ok.inj hfound
      exact ⟨iff_of_true hanswer hle, fun frame hsome => by simp [hframe] at hsome⟩
    | some frame =>
      have hlong := (List.getElem?_eq_some_iff.1 hframe).1
      obtain ⟨bank, hbank, hsuits, tag, context, hcontext⟩ := lead.exists_suits hthread hframe
      have hcases := register_of_frame_cases hthread hbank hframe hk name
      refine ⟨iff_of_false ?_ (Nat.not_le.2 hlt), fun found hfound => ?_⟩
      · rcases hcases with hanswer | ⟨_, hanswer⟩ | hanswer <;> simp [hanswer]
      obtain rfl := Except.ok.inj hfound
      refine ⟨iff_of_false ?_ (Nat.not_le.2 hlong), fun other hother => ?_⟩
      · rcases hcases with hanswer | ⟨_, hanswer⟩ | hanswer <;> simp [hanswer]
      obtain rfl := Option.some.inj (hframe.symm.trans hother)
      exact ⟨bank, hbank, hsuits.architecture, ⟨tag, context, hcontext⟩,
        outerAnswer_of_frame hsuits hcontext hthread hbank hframe hk name⟩

theorem outer_registers_exact_called : ∃ s, load called .standard noFiles = .ok s ∧ 1 ≤ 2 ∧
    s.register 0 1 "R15" = .ok ⟨[0, 0x80, 0, 0]⟩ ∧
    s.register 0 1 "r7" = .error (.registerUnavailable "r7" 1) ∧
    s.register 0 1 "rip" = .error (.unknownRegister "rip") ∧
    s.register 0 2 "rip" = .error (.frameUnavailable 0 2) ∧
    s.register 1 2 "rip" = .error (.threadNotFound 1) := by
  obtain ⟨s, hs, hseen⟩ := exists_ok_of_map load_called_eq
  obtain ⟨harchitecture, hseen⟩ := Prod.mk.inj hseen
  obtain ⟨hplatform, hthreads⟩ := Prod.mk.inj hseen
  obtain ⟨thread, hthreads, hseen⟩ := List.map_eq_singleton_iff.1 hthreads
  obtain ⟨_, hframes⟩ := Prod.mk.inj hseen
  have hthread : s.thread 0 = .ok thread := thread_eq_ok_iff.2 (by rw [hthreads]; rfl)
  have hanswers : ∀ name, s.OuterAnswer Arm.standard ⟨1, ⟨0x8000⟩, ⟨0x1008⟩, ⟨0⟩, .framePointer⟩ 1
      name (s.register 0 1 name) := by
    intro name
    obtain ⟨_, hframe⟩ := (outer_registers_exact hs (Nat.le_refl 1) 0 name).2 thread hthread
    obtain ⟨bank, _, harm, ⟨tag, context, hcontext⟩, hanswer⟩ := hframe _ (by rw [hframes]; rfl)
    have hselect := (RegisterBank.ofContext_eq_ok_iff.1 hcontext).1
    rw [hplatform, select_eq_ok_iff] at hselect
    rw [harchitecture, RegisterBank.architecture] at harm
    rcases hselect with ⟨_, h⟩ | ⟨_, h⟩ | ⟨_, h⟩ | ⟨_, h⟩
    · rw [← h] at harm
      exact absurd harm (by decide)
    · have hstandard : Arm.standard = bank.layout := h
      exact hstandard ▸ hanswer
    · rw [← h] at harm
      exact absurd harm (by decide)
    · rw [← h] at harm
      rcases layoutOf_eq context with heq | heq
      · exact absurd (heq ▸ harm) (by decide)
      · exact absurd (heq ▸ harm) (by decide)
  obtain ⟨hbeyond, _⟩ := (outer_registers_exact hs (by decide : 1 ≤ 2) 0 "rip").2 thread hthread
  obtain ⟨hmissing, _⟩ := outer_registers_exact hs (by decide : 1 ≤ 2) 1 "rip"
  refine ⟨s, hs, by decide, ?_, ?_, ?_, hbeyond.2 (by simp [hframes]),
    hmissing.2 (by simp [hthreads])⟩
  · have hknown := (hanswers "R15").known ⟨"r15", 64, 4, .general, true⟩
    obtain ⟨hvalue, _⟩ := hknown (by decide +kernel) (by decide)
    exact (hvalue _).2 ⟨"pc", ⟨0x8000⟩, .head _, by decide +kernel, rfl⟩
  · have hknown := (hanswers "r7").known ⟨"r7", 32, 4, .general, true⟩
    obtain ⟨_, hunavailable⟩ := hknown (by decide +kernel) (by decide)
    exact hunavailable.2 (by decide +kernel)
  · exact (hanswers "rip").unknown.2 (by decide +kernel)

end Snapshot
end CrashDump

import CrashDump.Proofs.RegisterSlices

/-!
# Reading registers

A context is taken if it has the bytes that its layout asks for. Then every name of the layout reads
its own slice of the context, in whatever case it is written, and no other name reads anything.
-/
namespace CrashDump

/-- A letter of ASCII in lower case; other characters stay. -/
def lowerLetter (c : Char) : Char :=
  if 'A' ≤ c ∧ c ≤ 'Z' then Char.ofNat (c.toNat + 32) else c

theorem toLower_eq_lowerLetter (c : Char) : c.toLower = lowerLetter c := by
  by_cases h : 'A' ≤ c ∧ c ≤ 'Z'
  · have hle : c.toNat ≤ 90 := h.2
    have hvalid : (c.toNat + 32).isValidChar := .inl (by omega)
    have hlower : c.toLower.toNat = (c.toNat + 32) % 2 ^ 32 := congrArg Char.toNat (dif_pos h)
    rw [lowerLetter, if_pos h, ← Char.toNat_inj, hlower, Char.toNat_ofNat, if_pos hvalid]
    omega
  · have hsame : c.toLower = c := dif_neg h
    rw [hsame, lowerLetter, if_neg h]

theorem toList_toLower (name : String) : name.toLower.toList = name.toList.map lowerLetter := by
  rw [String.toLower, String.toList_map, funext toLower_eq_lowerLetter]

theorem mem_bytes_of_mem {name : String} {c : Char} (hc : c ∈ name.toList)
    (hascii : c.toNat ≤ 127) : UInt8.ofNat c.toNat ∈ name.toByteArray.data.toList := by
  have hascii : c.val.toNat ≤ 127 := hascii
  rw [← String.utf8Encode_toList, List.utf8Encode, List.toList_data_toByteArray]
  refine List.mem_flatMap.2 ⟨c, hc, ?_⟩
  rw [String.utf8EncodeChar, if_pos hascii]
  exact List.mem_singleton_self _

/-- Where no byte is a capital letter, no character is. -/
theorem lowerLetter_of_bytes {name : String} {c : Char}
    (h : (name.toByteArray.data.toList.all fun byte => byte < 65 || 90 < byte) = true)
    (hc : c ∈ name.toList) : lowerLetter c = c := by
  refine if_neg fun ⟨hfirst, hlast⟩ => ?_
  have hfirst : 65 ≤ c.toNat := hfirst
  have hlast : c.toNat ≤ 90 := hlast
  have hbyte := List.all_eq_true.1 h _ (mem_bytes_of_mem hc (by omega))
  have hvalue : (UInt8.ofNat c.toNat).toNat = c.toNat := by
    rw [UInt8.toNat_ofNat']
    omega
  rcases Bool.or_eq_true_iff.1 hbyte with hlow | hhigh
  · have hlow : (UInt8.ofNat c.toNat).toNat < 65 := of_decide_eq_true hlow
    omega
  · have hhigh : 90 < (UInt8.ofNat c.toNat).toNat := of_decide_eq_true hhigh
    omega

/-- A number for a name. The modulus is one that tells the names of each layout apart. -/
def nameCode (name : String) : Nat := LittleEndian.value name.toByteArray.data.toList % 3503

/-- Whether numbers differ from each other and from the bits that are set. -/
def allFresh (seen : Nat) : List Nat → Bool
  | [] => true
  | n :: ns => !seen.testBit n && allFresh (seen ||| 1 <<< n) ns

theorem nodup_of_allFresh {seen : Nat} {ns : List Nat} (h : allFresh seen ns = true) :
    ns.Nodup ∧ ∀ n ∈ ns, seen.testBit n = false := by
  induction ns generalizing seen with
  | nil => exact ⟨List.nodup_nil, fun _ hn => absurd hn List.not_mem_nil⟩
  | cons n ns ih =>
    rw [allFresh, Bool.and_eq_true, Bool.not_eq_true'] at h
    obtain ⟨hnodup, hseen⟩ := ih h.2
    simp only [Nat.testBit_or, Bool.or_eq_false_iff, Nat.one_shiftLeft, Nat.testBit_two_pow,
      decide_eq_false_iff_not] at hseen
    refine ⟨List.nodup_cons.2 ⟨fun hn => (hseen n hn).2 rfl, hnodup⟩, ?_⟩
    rw [List.forall_mem_cons]
    exact ⟨h.1, fun m hm => (hseen m hm).1⟩

namespace RegisterEntry

variable {entries : List RegisterEntry} {entry : RegisterEntry} {name : String}

/-- The name is the entry's, but for the case of its letters. -/
def SpelledBy (entry : RegisterEntry) (name : String) : Prop :=
  entry.name.toList = name.toList.map lowerLetter

instance (entry : RegisterEntry) (name : String) : Decidable (entry.SpelledBy name) :=
  inferInstanceAs (Decidable (entry.name.toList = name.toList.map lowerLetter))

theorem spelledBy_iff : entry.SpelledBy name ↔ entry.name = name.toLower := by
  rw [SpelledBy, ← toList_toLower, String.toList_inj]

theorem named?_eq_some_iff (hnodup : (entries.map RegisterEntry.name).Nodup) :
    named? entries name = some entry ↔ entry ∈ entries ∧ entry.name = name := by
  constructor
  · intro h
    have hname := List.find?_some h
    exact ⟨List.mem_of_find?_eq_some h, eq_of_beq hname⟩
  · rintro ⟨hmem, rfl⟩
    refine find?_of_unique hmem BEq.rfl fun other hother hname => ?_
    exact List.inj_on_of_nodup_map hnodup hother hmem (eq_of_beq hname)

theorem named?_eq_none_iff : named? entries name = none ↔ ∀ entry ∈ entries, entry.name ≠ name := by
  simp [named?]

end RegisterEntry

namespace RegisterLayout

open RegisterEntry

variable {layout : RegisterLayout} {entry : RegisterEntry} {name : String} {tag : UInt16}
  {platform : Platform} {context : Buffer}

theorem allFresh_nameCode : ∀ layout ∈ all,
    allFresh 0 (layout.entries.map fun entry => nameCode entry.name) = true := by
  decide +kernel

-- The names are decided on as bytes: to decode them first takes many times longer.
theorem all_bytes_name : ∀ layout ∈ all, ∀ entry ∈ layout.entries,
    (entry.name.toByteArray.data.toList.all fun byte => byte < 65 || 90 < byte) = true := by
  decide +kernel

theorem lookup?_lr : ∀ layout ∈ all,
    layout.lookup? "lr" = none ↔ layout.kind.architecture = .amd64 := by
  decide +kernel

/-- No layout has a name twice. -/
theorem nodup_names (h : layout ∈ all) : (layout.entries.map RegisterEntry.name).Nodup := by
  have hcodes := (nodup_of_allFresh (allFresh_nameCode layout h)).1
  rw [show (fun entry : RegisterEntry => nameCode entry.name) = nameCode ∘ RegisterEntry.name
    from rfl, ← List.map_map] at hcodes
  exact hcodes.of_map nameCode

/-- The names of a layout are in lower case. -/
theorem spelledBy_name (h : layout ∈ all) (hentry : entry ∈ layout.entries) :
    entry.SpelledBy entry.name := by
  have hself : ∀ c ∈ entry.name.toList, lowerLetter c = c := fun c hc =>
    lowerLetter_of_bytes (all_bytes_name layout h entry hentry) hc
  exact ((List.map_congr_left hself).trans (List.map_id _)).symm

theorem lookup?_eq_some_iff (h : layout ∈ all) :
    layout.lookup? name = some entry ↔ entry ∈ layout.entries ∧ entry.SpelledBy name := by
  rw [lookup?, named?_eq_some_iff (nodup_names h), spelledBy_iff]

theorem lookup?_eq_none_iff :
    layout.lookup? name = none ↔ ∀ entry ∈ layout.entries, ¬ entry.SpelledBy name := by
  simp only [lookup?, named?_eq_none_iff, spelledBy_iff, ne_eq]

/-- To look for the name as it is written first makes no difference. -/
theorem named?_or_lookup? (h : layout ∈ all) (name : String) :
    (named? layout.entries name).or (layout.lookup? name) = layout.lookup? name := by
  cases hnamed : named? layout.entries name with
  | none => rfl
  | some entry =>
    obtain ⟨hmem, rfl⟩ := (named?_eq_some_iff (nodup_names h)).1 hnamed
    exact ((lookup?_eq_some_iff h).2 ⟨hmem, spelledBy_name h hmem⟩).symm

theorem exists_select_iff : (∃ layout, select tag platform context = .ok layout) ↔
    tag = 9 ∨ tag = 5 ∨ tag = 0x8003 ∨ tag = 12 := by
  simp only [select_eq_ok_iff, exists_or, exists_and_left, exists_eq', and_true]

theorem exists_select {architecture : Architecture}
    (h : Architecture.ofTag? tag = some architecture) (platform : Platform) (context : Buffer) :
    ∃ layout, select tag platform context = .ok layout := by
  rw [exists_select_iff]
  by_contra hno
  simp only [not_or] at hno
  obtain ⟨hfirst, hsecond, hthird, hfourth⟩ := hno
  simp [Architecture.ofTag?, hfirst, hsecond, hthird, hfourth] at h

/-- The processors with a layout, and how many bytes each asks of a context. -/
def Suffices (tag : UInt16) (context : Buffer) : Prop :=
  (tag = 9 ∧ 1232 ≤ context.size) ∨ (tag = 5 ∧ 368 ≤ context.size) ∨
  (tag = 0x8003 ∧ 796 ≤ context.size) ∨
  (tag = 12 ∧ 796 ≤ context.size ∧
    ∀ flags ∈ context.word? 4 0, flags.testBit 22 = true → 912 ≤ context.size)

theorem contextSize_layoutOf_le_iff : (Arm64.layoutOf context).contextSize ≤ context.size ↔
    796 ≤ context.size ∧
      ∀ flags ∈ context.word? 4 0, flags.testBit 22 = true → 912 ≤ context.size := by
  have haligned : Arm64.aligned.contextSize = 912 := rfl
  have hpacked : Arm64.packed.contextSize = 796 := rfl
  have hflags : (∀ flags ∈ context.word? 4 0, flags.testBit 22 = true → 912 ≤ context.size) ↔
      (((context.word? 4 0).getD 0).testBit 22 = true → 912 ≤ context.size) := by
    cases context.word? 4 0 <;> simp
  rw [hflags, Arm64.layoutOf]
  split
  · next hflag =>
    rw [haligned, forall_prop_of_true hflag]
    omega
  · next hflag =>
    rw [and_iff_left fun h => absurd h hflag]
    split
    · rw [hpacked]
    · next hlong =>
      rw [haligned] at hlong ⊢
      omega

theorem exists_suffices_iff : (∃ layout, select tag platform context = .ok layout ∧
    layout.contextSize ≤ context.size) ↔ Suffices tag context := by
  have hamd64 : (if platform = .windows then Amd64.windows else Amd64.systemV).contextSize =
      1232 := by
    split <;> rfl
  have harm : (if platform.isApple then Arm.apple else Arm.standard).contextSize = 368 := by
    split <;> rfl
  have hpacked : Arm64.packed.contextSize = 796 := rfl
  simp only [select_eq_ok_iff, or_and_right, exists_or, and_assoc, exists_and_left,
    exists_eq_left', hamd64, harm, hpacked, contextSize_layoutOf_le_iff, Suffices]

end RegisterLayout

namespace RegisterBank

open RegisterLayout

variable {bank : RegisterBank} {entry : RegisterEntry} {name : String}

/-- The names of the layout read their slices of the context and other names nothing. -/
structure ReadsExactly (bank : RegisterBank) : Prop where
  within : ∀ entry ∈ bank.layout.entries, entry.offset + entry.width ≤ bank.context.size
  own : ∀ entry ∈ bank.layout.entries, entry.SpelledBy entry.name
  listed : ∀ name value, bank.read name = .ok value ↔
    ∃ entry ∈ bank.layout.entries, entry.SpelledBy name ∧ value = bank.sliceOf entry
  unlisted : ∀ name fault, bank.read name = .error fault ↔
    (∀ entry ∈ bank.layout.entries, ¬ entry.SpelledBy name) ∧ fault = .unknownRegister name
  frame : ∃ pc sp fp, bank.read "pc" = .ok pc ∧ bank.pc = pc.address ∧
    bank.read "sp" = .ok sp ∧ bank.sp = sp.address ∧ bank.read "fp" = .ok fp ∧
    bank.fp = fp.address
  link : bank.lr? = none ↔ bank.architecture = .amd64
  primary : bank.primary = (bank.layout.entries.filter RegisterEntry.primary).map
    fun entry => (entry, bank.sliceOf entry)

namespace Filled

variable (h : bank.Filled)
include h

theorem read_eq_ok_iff {value : RegisterValue} : bank.read name = .ok value ↔
    ∃ entry ∈ bank.layout.entries, entry.SpelledBy name ∧ value = bank.sliceOf entry := by
  constructor
  · intro hread
    rcases h.read_eq name with ⟨_, herror⟩ | ⟨entry, hentry, _, hvalue⟩
    · simp [hread] at herror
    · obtain ⟨hmem, hspelled⟩ := (lookup?_eq_some_iff h.layout).1 hentry
      exact ⟨entry, hmem, hspelled, Except.ok.inj (hread.symm.trans hvalue)⟩
  · rintro ⟨entry, hmem, hspelled, rfl⟩
    have hentry := (lookup?_eq_some_iff h.layout).2 ⟨hmem, hspelled⟩
    simp only [read, hentry, h.value?_eq hmem]

theorem read_eq_error_iff {fault : SnapshotFault} : bank.read name = .error fault ↔
    (∀ entry ∈ bank.layout.entries, ¬ entry.SpelledBy name) ∧ fault = .unknownRegister name := by
  rw [← lookup?_eq_none_iff]
  rcases h.read_eq name with ⟨hnone, herror⟩ | ⟨entry, hentry, _, hvalue⟩
  · simp [hnone, herror, eq_comm]
  · simp [hentry, hvalue]

theorem exists_address (hname : name ∈ frameNames) :
    ∃ value, bank.read name = .ok value ∧ bank.address name = value.address := by
  obtain ⟨value, hread, _⟩ := h.exists_read hname
  exact ⟨value, hread, by rw [address, hread]⟩

theorem lr?_eq_none_iff : bank.lr? = none ↔ bank.architecture = .amd64 := by
  rw [architecture, ← lookup?_lr bank.layout h.layout, lr?]
  rcases h.read_eq "lr" with ⟨hnone, herror⟩ | ⟨entry, hentry, _, hvalue⟩
  · simp [hnone, herror, Except.toOption]
  · simp [hentry, hvalue, Except.toOption]

theorem primary_eq : bank.primary = (bank.layout.entries.filter RegisterEntry.primary).map
    fun entry => (entry, bank.sliceOf entry) := by
  rw [primary, ← List.filterMap_eq_map]
  refine List.filterMap_congr fun entry hentry => ?_
  rw [h.value?_eq (List.mem_of_mem_filter hentry)]
  rfl

theorem readsExactly : bank.ReadsExactly := by
  obtain ⟨pc, hpc, hpc'⟩ := h.exists_address (show "pc" ∈ frameNames by decide)
  obtain ⟨sp, hsp, hsp'⟩ := h.exists_address (show "sp" ∈ frameNames by decide)
  obtain ⟨fp, hfp, hfp'⟩ := h.exists_address (show "fp" ∈ frameNames by decide)
  exact ⟨fun entry => h.within, fun entry => spelledBy_name h.layout,
    fun name value => h.read_eq_ok_iff, fun name fault => h.read_eq_error_iff,
    ⟨pc, sp, fp, hpc, hpc', hsp, hsp', hfp, hfp'⟩, h.lr?_eq_none_iff, h.primary_eq⟩

end Filled

/-- A context is taken if its processor has a layout and it is as long as that asks for. What is
read from it then are the slices that the layout names, whatever the case of the letters. -/
theorem contexts_exact (tag : UInt16) (platform : Platform) (context : Buffer) :
    ((∃ bank, ofContext tag platform context = .ok bank) ↔
      ∃ layout, select tag platform context = .ok layout ∧ layout.contextSize ≤ context.size) ∧
    ((∃ layout, select tag platform context = .ok layout) ↔
      tag = 9 ∨ tag = 5 ∨ tag = 0x8003 ∨ tag = 12) ∧
    ((∃ bank, ofContext tag platform context = .ok bank) ↔ Suffices tag context) ∧
    ∀ bank, ofContext tag platform context = .ok bank →
      select tag platform context = .ok bank.layout ∧ bank.context = context ∧
      bank.ReadsExactly := by
  have haccepted : (∃ bank, ofContext tag platform context = .ok bank) ↔
      ∃ layout, select tag platform context = .ok layout ∧
        layout.contextSize ≤ context.size := by
    constructor
    · rintro ⟨bank, hbank⟩
      obtain ⟨hlayout, _, hsize⟩ := ofContext_eq_ok_iff.1 hbank
      exact ⟨bank.layout, hlayout, hsize⟩
    · rintro ⟨layout, hlayout, hsize⟩
      exact ⟨⟨layout, context⟩, ofContext_eq_ok_iff.2 ⟨hlayout, rfl, hsize⟩⟩
  refine ⟨haccepted, exists_select_iff, haccepted.trans exists_suffices_iff, fun bank hbank => ?_⟩
  obtain ⟨hlayout, hcontext, _⟩ := ofContext_eq_ok_iff.1 hbank
  exact ⟨hlayout, hcontext, (filled_of_ofContext hbank).1.readsExactly⟩

/-- A context in which each byte is its own place. -/
def counted : Buffer := Buffer.ofBytes ((List.range 368).map UInt8.ofNat)

theorem contexts_exact_counted : ∃ bank, ofContext 5 .linux counted = .ok bank ∧
    bank.read "Pc" = .ok ⟨[64, 65, 66, 67]⟩ ∧
    bank.read "EAX" = .error (.unknownRegister "EAX") ∧ bank.lr? ≠ none := by
  obtain ⟨_, _, haccepted, hexact⟩ := contexts_exact 5 .linux counted
  obtain ⟨bank, hbank⟩ := haccepted.2 (.inr (.inl ⟨rfl, by decide +kernel⟩))
  obtain ⟨hlayout, hcontext, hreads⟩ := hexact bank hbank
  have hstandard : bank.layout = Arm.standard := (Except.ok.inj hlayout).symm
  refine ⟨bank, hbank, (hreads.listed _ _).2 ?_, (hreads.unlisted _ _).2 ⟨?_, rfl⟩, fun hnone => ?_⟩
  · rw [hstandard]
    refine ⟨⟨"pc", 64, 4, .general, false⟩, by decide +kernel, by decide, ?_⟩
    unfold sliceOf
    rw [hcontext]
    decide +kernel
  · rw [hstandard]
    decide +kernel
  · have hamd64 := hreads.link.1 hnone
    rw [architecture, hstandard] at hamd64
    exact absurd hamd64 (by decide)

end RegisterBank
end CrashDump

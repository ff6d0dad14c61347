import CrashDump.Module.Listing
import CrashDump.Proofs.Numerals
import CrashDump.Proofs.Outcome

/-!
# Identities of builds

The text of an identity is the bytes of it in groups of digits, and they can be read back from it.
So two modules with the same kind of debug record have one identity only if they are one build.
-/
namespace CrashDump

namespace LittleEndian

theorem bytes_word_inj {a b : UInt32} : bytes 4 a.toNat = bytes 4 b.toNat ↔ a = b := by
  refine ⟨fun h => ?_, fun h => h ▸ rfl⟩
  have ha : a.toNat % count 4 = a.toNat := Nat.mod_eq_of_lt a.toNat_lt
  have hb : b.toNat % count 4 = b.toNat := Nat.mod_eq_of_lt b.toNat_lt
  have hvalue := congrArg value h
  rw [value_bytes, value_bytes, ha, hb] at hvalue
  exact UInt32.toNat_inj.1 hvalue

theorem bytes_words_inj {a b a' b' : UInt32} :
    bytes 4 a.toNat ++ bytes 4 b.toNat = bytes 4 a'.toNat ++ bytes 4 b'.toNat ↔
      a = a' ∧ b = b' := by
  constructor
  · intro h
    obtain ⟨hfirst, hsecond⟩ := List.append_inj h (by rw [length_bytes, length_bytes])
    exact ⟨bytes_word_inj.1 hfirst, bytes_word_inj.1 hsecond⟩
  · rintro ⟨rfl, rfl⟩
    rfl

end LittleEndian

namespace CodeView

def SameKind : CodeView → CodeView → Prop
  | pdb70 .., pdb70 .. | pdb20 .., pdb20 .. | elf _, elf _ => True
  | _, _ => False

/-- Whether two records agree on all that tells one build from another; the name of the debug file
is not of it. -/
def SameBuild : CodeView → CodeView → Prop
  | pdb70 guid age _, pdb70 guid' age' _ => guid = guid' ∧ age = age'
  | pdb20 signature age _, pdb20 signature' age' _ => signature = signature' ∧ age = age'
  | elf buildId, elf buildId' => buildId = buildId'
  | _, _ => False

/-- An age of zero is told from the others by how many bytes there are. -/
theorem identityBytes_pdb70_inj {guid guid' : Vector UInt8 16} {age age' : UInt32}
    {name name' : String} :
    (pdb70 guid age name).identityBytes = (pdb70 guid' age' name').identityBytes ↔
      guid = guid' ∧ age = age' := by
  have hbytes : ∀ (guid : Vector UInt8 16) (age : UInt32) (name : String),
      (pdb70 guid age name).identityBytes =
        guid.toList ++ if age = 0 then [] else LittleEndian.bytes 4 age.toNat := by
    intro guid age name
    change (if age = 0 then guid.toList else _) = _
    split
    · exact (List.append_nil _).symm
    · rfl
  rw [hbytes, hbytes]
  constructor
  · intro h
    obtain ⟨hguid, hage⟩ := List.append_inj h (by simp)
    refine ⟨Vector.toList_inj.1 hguid, ?_⟩
    split at hage
    · next hzero =>
      split at hage
      · next hzero' => rw [hzero, hzero']
      · simpa using congrArg List.length hage
    · split at hage
      · simpa using congrArg List.length hage
      · exact LittleEndian.bytes_word_inj.1 hage
  · rintro ⟨rfl, rfl⟩
    rfl

theorem identityBytes_inj {record record' : CodeView} (h : record.SameKind record') :
    record.identityBytes = record'.identityBytes ↔ record.SameBuild record' := by
  cases record with
  | pdb70 guid age name =>
    cases record' with
    | pdb70 guid' age' name' => exact identityBytes_pdb70_inj
    | pdb20 | elf => exact h.elim
  | pdb20 signature age name =>
    cases record' with
    | pdb20 signature' age' name' => exact LittleEndian.bytes_words_inj
    | pdb70 | elf => exact h.elim
  | elf buildId =>
    cases record' with
    | elf buildId' => exact Iff.rfl
    | pdb70 | pdb20 => exact h.elim

end CodeView

namespace Identity

variable {bound k : Nat} {sizes : List Nat} {b : UInt8} {bytes group : List UInt8}

theorem groupsUpTo_cons : groupsUpTo (bound + 1) sizes (b :: bytes) =
    (b :: bytes).take (sizes.headD 4) ::
      groupsUpTo bound sizes.tail ((b :: bytes).drop (sizes.headD 4)) := rfl

section Rounds

variable (hsizes : ∀ size ∈ sizes, 0 < size)
include hsizes

theorem headD_pos : 0 < sizes.headD 4 := by
  cases sizes with
  | nil => decide
  | cons size sizes => exact hsizes size List.mem_cons_self

theorem pos_of_mem_tail : ∀ size ∈ sizes.tail, 0 < size :=
  fun size hsize => hsizes size (List.mem_of_mem_tail hsize)

/-- Each round takes a byte at least. -/
theorem length_drop_le (hbound : (b :: bytes).length ≤ bound + 1) :
    ((b :: bytes).drop (sizes.headD 4)).length ≤ bound := by
  have hpos := headD_pos hsizes
  rw [List.length_drop]
  omega

/-- A bound that is no less than the number of bytes cuts nothing off. -/
theorem flatten_groupsUpTo (hbound : bytes.length ≤ bound) :
    (groupsUpTo bound sizes bytes).flatten = bytes := by
  induction bound generalizing sizes bytes with
  | zero => rw [List.length_eq_zero_iff.1 (Nat.le_zero.1 hbound), groupsUpTo, List.flatten_nil]
  | succ bound ih =>
    cases bytes with
    | nil => rfl
    | cons b bytes =>
      rw [groupsUpTo_cons, List.flatten_cons,
        ih (pos_of_mem_tail hsizes) (length_drop_le hsizes hbound), List.take_append_drop]

/-- All such bounds give the same groups. -/
theorem groupsUpTo_eq {bound' : Nat} (hbound : bytes.length ≤ bound)
    (hbound' : bytes.length ≤ bound') :
    groupsUpTo bound sizes bytes = groupsUpTo bound' sizes bytes := by
  induction bound generalizing bound' sizes bytes with
  | zero =>
    rw [List.length_eq_zero_iff.1 (Nat.le_zero.1 hbound)]
    cases bound' <;> rfl
  | succ bound ih =>
    cases bytes with
    | nil => cases bound' <;> rfl
    | cons b bytes =>
      cases bound' with
      | zero => exact absurd hbound' (Nat.not_succ_le_zero _)
      | succ bound' =>
        rw [groupsUpTo_cons, groupsUpTo_cons, ih (pos_of_mem_tail hsizes)
          (length_drop_le hsizes hbound) (length_drop_le hsizes hbound')]

/-- Every group but the last has its full size, and the last has a byte at least. -/
theorem length_of_getElem? (h : (groupsUpTo bound sizes bytes)[k]? = some group) :
    0 < group.length ∧ group.length ≤ sizes.getD k 4 ∧
      (k + 1 < (groupsUpTo bound sizes bytes).length → group.length = sizes.getD k 4) := by
  induction bound generalizing sizes bytes k with
  | zero => simp [groupsUpTo] at h
  | succ bound ih =>
    cases bytes with
    | nil => simp [groupsUpTo] at h
    | cons b bytes =>
      have hpos := headD_pos hsizes
      rw [groupsUpTo_cons] at h ⊢
      cases k with
      | zero =>
        obtain rfl : (b :: bytes).take (sizes.headD 4) = group := by simpa using h
        have hhead : sizes.getD 0 4 = sizes.headD 4 := by cases sizes <;> rfl
        rw [hhead, List.length_take, List.length_cons, List.length_cons]
        refine ⟨by omega, Nat.min_le_left _ _, fun hmore => ?_⟩
        -- Where another group follows there are bytes left for it.
        by_contra hshort
        have hnone : (b :: bytes).drop (sizes.headD 4) = [] := by
          rw [List.drop_eq_nil_iff, List.length_cons]
          omega
        rw [hnone] at hmore
        cases bound <;> simp [groupsUpTo] at hmore
      | succ k =>
        have htail : sizes.getD (k + 1) 4 = sizes.tail.getD k 4 := by cases sizes <;> simp
        rw [List.getElem?_cons_succ] at h
        rw [htail, List.length_cons, Nat.add_lt_add_iff_right]
        exact ih (pos_of_mem_tail hsizes) h

end Rounds

theorem flatten_groups (bytes : List UInt8) : (groups bytes).flatten = bytes :=
  flatten_groupsUpTo (by decide) (Nat.le_refl _)

theorem digits_append (first second : List UInt8) :
    digits (first ++ second) = digits first ++ digits second := by
  simp [digits, Hex.byteDigits]

theorem length_digits (bytes : List UInt8) : (digits bytes).length = 2 * bytes.length := by
  rw [digits, List.length_map, Hex.length_byteDigits]

theorem mem_upperDigits {c : Char} (h : c ∈ digits bytes) : c ∈ Hex.upperDigits := by
  obtain ⟨d, hd, rfl⟩ := List.mem_map.1 h
  exact Hex.toUpper_mem (Hex.mem_lowerDigits_of_mem_byteDigits hd)

theorem flatten_map_digits (groups : List (List UInt8)) :
    (groups.map digits).flatten = digits groups.flatten := by
  induction groups with
  | nil => rfl
  | cons group groups ih => rw [List.map_cons, List.flatten_cons, ih, List.flatten_cons,
      digits_append]

theorem filter_intercalate {α : Type} [DecidableEq α] {separator : α} {pieces : List (List α)}
    (h : ∀ piece ∈ pieces, separator ∉ piece) :
    ([separator].intercalate pieces).filter (fun x => x ≠ separator) = pieces.flatten := by
  have hkeep : ∀ piece ∈ pieces, piece.filter (fun x => x ≠ separator) = piece := by
    intro piece hpiece
    refine List.filter_eq_self.2 fun x hx => decide_eq_true ?_
    rintro rfl
    exact h piece hpiece hx
  clear h
  induction pieces with
  | nil => rfl
  | cons piece pieces ih =>
    cases pieces with
    | nil => simpa using hkeep
    | cons next pieces =>
      rw [List.intercalate_cons_cons, List.filter_append, List.filter_append,
        ih fun other hother => hkeep other (List.mem_cons_of_mem _ hother),
        hkeep piece List.mem_cons_self, List.flatten_cons]
      simp

/-- Without the dashes the text is the digits of the bytes. -/
theorem filter_text (bytes : List UInt8) :
    (text bytes).toList.filter (fun c => c ≠ '-') = digits bytes := by
  have hdash : '-' ∉ Hex.upperDigits := by decide
  rw [text, String.toList_ofList, filter_intercalate, flatten_map_digits, flatten_groups]
  intro piece hpiece hmem
  obtain ⟨group, _, rfl⟩ := List.mem_map.1 hpiece
  exact hdash (mem_upperDigits hmem)

theorem bytes?_text (bytes : List UInt8) :
    Hex.bytes? ((text bytes).toList.filter fun c => c ≠ '-') = some bytes := by
  rw [filter_text]
  exact Hex.bytes?_toUpper bytes

theorem text_injective : Function.Injective text := by
  intro first second h
  have hfirst := bytes?_text first
  rw [h, bytes?_text] at hfirst
  exact (Option.some.inj hfirst).symm

/-- How many digits the group of a number has if others follow it. -/
def groupLength (number : Nat) : Nat := [8, 4, 4, 4, 12].getD number 8

/-- Groups of digits, first as in a GUID and then of eight each. Only the last may have fewer. -/
structure Grouped (pieces : List (List Char)) : Prop where
  digits : ∀ piece ∈ pieces, ∀ c ∈ piece, c ∈ Hex.upperDigits
  short : ∀ k piece, pieces[k]? = some piece → 0 < piece.length ∧ piece.length ≤ groupLength k
  full : ∀ k piece, pieces[k]? = some piece → k + 1 < pieces.length →
    piece.length = groupLength k

theorem grouped_digits (bytes : List UInt8) : Grouped ((groups bytes).map digits) := by
  have hsizes : ∀ size ∈ [4, 2, 2, 2, 6], 0 < size := by decide
  have hlength : ∀ k, groupLength k = 2 * [4, 2, 2, 2, 6].getD k 4 := by
    intro k
    rcases k with _ | _ | _ | _ | _ | k
    all_goals rfl
  refine ⟨fun piece hpiece c hc => ?_, fun k piece hk => ?_, fun k piece hk hmore => ?_⟩
  · obtain ⟨group, _, rfl⟩ := List.mem_map.1 hpiece
    exact mem_upperDigits hc
  · rw [List.getElem?_map] at hk
    obtain ⟨group, hgroup, rfl⟩ := Option.map_eq_some_iff.1 hk
    obtain ⟨hpos, hle, _⟩ := length_of_getElem? hsizes hgroup
    rw [length_digits, hlength]
    omega
  · rw [List.getElem?_map] at hk
    obtain ⟨group, hgroup, rfl⟩ := Option.map_eq_some_iff.1 hk
    rw [List.length_map] at hmore
    rw [length_digits, hlength, (length_of_getElem? hsizes hgroup).2.2 hmore]

/-- Time stamp and size as one word: the eight digits of the first end where the second starts. -/
theorem code_inj {timeStamp size timeStamp' size' : UInt32} :
    code timeStamp size = code timeStamp' size' ↔ timeStamp = timeStamp' ∧ size = size' := by
  constructor
  · intro h
    rw [code, code, String.ofList_inj, List.map_append, List.map_append] at h
    obtain ⟨hstamp, hsize⟩ := List.append_inj h (by simp)
    have hstamp := congrArg (Numeral.value? 16) hstamp
    have hsize := congrArg (Numeral.value? 16) hsize
    rw [Hex.value?_toUpper fun c => Hex.mem_lowerDigits_of_mem_digits,
      Hex.value?_toUpper fun c => Hex.mem_lowerDigits_of_mem_digits, Hex.value?_digits,
      Hex.value?_digits, Option.some.injEq] at hstamp
    rw [Hex.value?_toUpper fun c => Hex.mem_lowerDigits_of_mem_toDigits,
      Hex.value?_toUpper fun c => Hex.mem_lowerDigits_of_mem_toDigits,
      Numeral.value?_toDigits (by decide) (by decide),
      Numeral.value?_toDigits (by decide) (by decide), Option.some.injEq] at hsize
    have hlt := timeStamp.toNat_lt
    have hlt' := timeStamp'.toNat_lt
    exact ⟨UInt32.toNat_inj.1 (by omega), UInt32.toNat_inj.1 hsize⟩
  · rintro ⟨rfl, rfl⟩
    rfl

/-- Two records of one kind have one text exactly if they are of one build. -/
theorem ofModule_inj {record record' : CodeView} (h : record.SameKind record')
    (timeStamp size timeStamp' size' : UInt32) :
    ofModule (some record) timeStamp size = ofModule (some record') timeStamp' size' ↔
      record.SameBuild record' :=
  text_injective.eq_iff.trans (CodeView.identityBytes_inj h)

theorem ofModule_none_inj {timeStamp size timeStamp' size' : UInt32} :
    ofModule none timeStamp size = ofModule none timeStamp' size' ↔
      timeStamp = timeStamp' ∧ size = size' :=
  text_injective.eq_iff.trans LittleEndian.bytes_words_inj

end Identity

namespace Module

/-- A module whose texts are those of its debug record, its time stamp and its size. -/
structure Named (m : Module) : Prop where
  identity : m.identity = Identity.ofModule m.codeView m.timeStamp m.size.toUInt32
  code : m.codeId = Identity.code m.timeStamp m.size.toUInt32
  size : m.size.toUInt32.toUInt64 = m.size

theorem named_of_ofRecord {c : Container} {disk : Disk} {directories : List String}
    {record : ModuleRecord} {m : Module} {reports : List Diagnostic}
    (h : ofRecord c disk directories record = .ok (m, reports)) : m.Named := by
  obtain ⟨path, _, h⟩ := bind_eq_ok.1 h
  obtain ⟨codeView, _, h⟩ := bind_eq_ok.1 h
  obtain ⟨rfl, _⟩ := Prod.mk.inj (Except.ok.inj h)
  exact ⟨by simp, by simp, by simp⟩

theorem Named.size_inj {m n : Module} (hm : m.Named) (hn : n.Named) :
    m.size.toUInt32 = n.size.toUInt32 ↔ m.size = n.size :=
  ⟨fun h => by rw [← hm.size, h, hn.size], fun h => h ▸ rfl⟩

/-- The text of an identity is uppercase digits in groups, from which the bytes can be read back. So
modules with debug records of one kind have one identity exactly if they are of one build, and
modules without such records, exactly if they have one time stamp and one size. -/
theorem identities_exact :
    (∀ bytes, ∃ pieces, (Identity.text bytes).toList = ['-'].intercalate pieces ∧
      Identity.Grouped pieces ∧ pieces.flatten.length = 2 * bytes.length ∧
      Hex.bytes? ((Identity.text bytes).toList.filter fun c => c ≠ '-') = some bytes) ∧
    Function.Injective Identity.text ∧
    (∀ bytes bound, bytes.length ≤ bound → (Identity.groups bytes).flatten = bytes ∧
      Identity.groupsUpTo bound [4, 2, 2, 2, 6] bytes = Identity.groups bytes) ∧
    (∀ c disk directories record m reports,
      ofRecord c disk directories record = .ok (m, reports) → m.Named) ∧
    ∀ m n : Module, m.Named → n.Named →
      (∀ record record', m.codeView = some record → n.codeView = some record' →
        record.SameKind record' → (m.identity = n.identity ↔ record.SameBuild record')) ∧
      (m.codeView = none → n.codeView = none →
        (m.identity = n.identity ↔ m.timeStamp = n.timeStamp ∧ m.size = n.size)) ∧
      (m.codeId = n.codeId ↔ m.timeStamp = n.timeStamp ∧ m.size = n.size) := by
  refine ⟨fun bytes => ?_, Identity.text_injective, fun bytes bound hbound => ?_,
    fun c disk directories record m reports => named_of_ofRecord, fun m n hm hn => ?_⟩
  · refine ⟨_, String.toList_ofList, Identity.grouped_digits bytes, ?_, Identity.bytes?_text bytes⟩
    rw [Identity.flatten_map_digits, Identity.flatten_groups, Identity.length_digits]
  · exact ⟨Identity.flatten_groups bytes,
      Identity.groupsUpTo_eq (by decide) hbound (Nat.le_refl _)⟩
  · refine ⟨fun record record' hrecord hrecord' hkind => ?_, fun hnone hnone' => ?_, ?_⟩
    · rw [hm.identity, hn.identity, hrecord, hrecord', Identity.ofModule_inj hkind]
    · rw [hm.identity, hn.identity, hnone, hnone', Identity.ofModule_none_inj, hm.size_inj hn]
    · rw [hm.code, hn.code, Identity.code_inj, hm.size_inj hn]

/-- A debug record of no age and one of the age one, and two modules without such records that were
built one second apart. -/
theorem identities_exact_aged :
    let bytes : List UInt8 := [1, 2, 3, 4, 5]
    let guid : Vector UInt8 16 := Vector.replicate 16 7
    let first := CodeView.pdb70 guid 0 "a.pdb"
    let second := CodeView.pdb70 guid 1 "b.pdb"
    let built (record : CodeView) : Module := ⟨"a", ⟨0x1000⟩, 0x10, Identity.ofModule record 3 0x10,
      Identity.code 3 0x10, record, 0, 3, none, none⟩
    Identity.groupsUpTo 9 [4, 2, 2, 2, 6] bytes = Identity.groups bytes ∧
      (built first).identity ≠ (built second).identity ∧
      (built first).codeId = (built second).codeId ∧
      ∃ m n : Module, m.codeView = none ∧ n.codeView = none ∧ m.size = n.size ∧
        m.identity ≠ n.identity ∧ m.codeId ≠ n.codeId := by
  intro bytes guid first second built
  obtain ⟨_, _, hgroups, hnamed, hexact⟩ := identities_exact
  -- The data is a path of one letter, so a record can be read that names it.
  let c : Container := ⟨Buffer.ofBytes [2, 0, 0, 0, 0x61, 0], ⟨0, 0, 0, 0, 0, 0, 0⟩, .empty⟩
  let disk : Disk := { read := fun _ => .error .notFound }
  let record (timeStamp : UInt32) : ModuleRecord :=
    ⟨0x1000, 0x10, 0, timeStamp, 0, ⟨0, 0, 0, 0, 0, 0, 0, 0, 0, 0, 0, 0, 0⟩, ⟨0, 0⟩, ⟨0, 0⟩, 0, 0⟩
  have hname : c.string 0 = .ok "a" := by decide +kernel
  have hlisted : ∀ timeStamp, ∃ m reports,
      ofRecord c disk [] (record timeStamp) = .ok (m, reports) ∧ m.codeView = none ∧
        m.timeStamp = timeStamp ∧ m.size = 0x10 := fun timeStamp =>
    ⟨_, _, bind_eq_ok.2 ⟨"a", hname, rfl⟩, rfl, rfl, rfl⟩
  obtain ⟨m, reports, hm, hmnone, hmstamp, hmsize⟩ := hlisted 3
  obtain ⟨n, others, hn, hnnone, hnstamp, hnsize⟩ := hlisted 4
  have hbuilt : ∀ record, (built record).Named := fun record => ⟨rfl, rfl, rfl⟩
  obtain ⟨hrecords, _, hcodes⟩ := hexact _ _ (hbuilt first) (hbuilt second)
  obtain ⟨_, hnone, hcodes'⟩ :=
    hexact m n (hnamed _ _ _ _ _ _ hm) (hnamed _ _ _ _ _ _ hn)
  have hstamps : ¬(m.timeStamp = n.timeStamp ∧ m.size = n.size) := by
    rw [hmstamp, hnstamp]
    exact fun h => absurd h.1 (by decide)
  refine ⟨(hgroups bytes 9 (by decide)).2, fun h => ?_, hcodes.2 ⟨rfl, rfl⟩, m, n, hmnone, hnnone,
    hmsize.trans hnsize.symm, fun h => hstamps ((hnone hmnone hnnone).1 h),
    fun h => hstamps (hcodes'.1 h)⟩
  exact absurd ((hrecords first second rfl rfl trivial).1 h).2 (by decide)

end Module
end CrashDump

import CrashDump.Proofs.Machine.Streams
import CrashDump.Proofs.ModuleLookup

/-!
# Modules on the machine

Debug records are cut up, identities are printed and images are compared by slices that nobody
checks; the tests before them make them safe. Files are read as objects by a library, which is a
parameter here.
-/
namespace CrashDump.Machine

/-- The text before the first zero byte. -/
def cString (bytes : List UInt8) : Except Trap String := do
  let text ← front bytes (bytes.findIdx fun b => b == 0)
  return Utf8.decode text

theorem cString_eq (bytes : List UInt8) : cString bytes = .ok (CodeView.nameOf bytes) := by
  have hnot : (fun b : UInt8 => !(b != 0)) = fun b => b == 0 := by
    funext b
    simp [bne]
  rw [cString, front_eq List.findIdx_le_length, CodeView.nameOf, List.takeWhile_eq_take_findIdx_not,
    hnot]
  rfl

/-- Two values, one after the other. -/
def both (α β : Type) [Record α] [Record β] : Reader (α × β) := do
  let a ← Record.read
  let b ← Record.read
  return (a, b)

/-- A debug record of two values at one place and a text that starts at another. What follows the
values is cut off there. -/
def debugFields {α β : Type} [Record α] [Record β] (make : α → β → String → CodeView)
    (record : List UInt8) (place textPlace : Nat) : Except Trap (Option CodeView) :=
  match (both α β).run' (record.drop place) with
  | .error _ => return none
  | .ok (a, b) => do
    let name ← cString (record.drop textPlace)
    return some (make a b name)

/-- A debug record by the signature it starts with. -/
def codeView? (record : List UInt8) : Except Trap (Option CodeView) :=
  match (Record.read : Reader UInt32).run' record with
  | .error _ => return none
  | .ok signature =>
    if signature = CodeView.pdb70Signature then
      debugFields CodeView.pdb70 record 4 24
    else if signature = CodeView.pdb20Signature then
      debugFields CodeView.pdb20 record 8 16
    else if signature = CodeView.elfSignature then do
      let buildId ← back record 4
      return some (.elf buildId)
    else return none

section Readers

open Reader

variable {α β γ : Type} [Record α] [Record β] {m n : Nat} {f : List UInt8 → α}
  {g : List UInt8 → β}

/-- What a reader makes of two values and of all bytes after them. -/
theorem both_rest (hα : Takes (Record.read : Reader α) m f)
    (hβ : Takes (Record.read : Reader β) n g) (make : α → β → List UInt8 → γ)
    (bytes : List UInt8) :
    ((do return make (← Record.read) (← Record.read) (← Reader.rest)) : Reader γ).run' bytes =
      ((both α β).run' bytes).map fun p => make p.1 p.2 (bytes.drop (m + n)) := by
  change (((Record.read : Reader α) >>= fun a => Record.read >>= fun b =>
    Reader.rest >>= fun rest => pure (make a b rest)) bytes).map Prod.fst =
      (((both α β) bytes).map Prod.fst).map _
  unfold both
  cases hfirst : (Record.read : Reader α) bytes with
  | error fault =>
    rw [bind_fails hfirst, bind_fails hfirst]
    rfl
  | ok first =>
    obtain ⟨a, afterFirst⟩ := first
    obtain ⟨_, hafter⟩ := (hα bytes _).1 hfirst
    obtain rfl : bytes.drop m = afterFirst := (Prod.mk.inj hafter).2
    rw [bind_eq hfirst, bind_eq hfirst]
    cases hsecond : (Record.read : Reader β) (bytes.drop m) with
    | error fault =>
      rw [bind_fails hsecond, bind_fails hsecond]
      rfl
    | ok second =>
      obtain ⟨b, afterSecond⟩ := second
      obtain ⟨_, hafter⟩ := (hβ _ _).1 hsecond
      obtain rfl : (bytes.drop m).drop n = afterSecond := (Prod.mk.inj hafter).2
      rw [bind_eq hsecond, bind_eq hsecond, List.drop_drop]
      rfl

/-- A word that is read for nothing may as well be passed over, if something has to follow it. -/
theorem toOption_skip {next : Reader γ} {fault : ReadFault} (hnext : next [] = .error fault)
    (bytes : List UInt8) :
    (((Record.read : Reader UInt32) >>= fun _ => next).run' bytes).toOption =
      (next.run' (bytes.drop 4)).toOption := by
  change ((((Record.read : Reader UInt32) >>= fun _ => next) bytes).map Prod.fst).toOption =
    ((next (bytes.drop 4)).map Prod.fst).toOption
  by_cases hlength : 4 ≤ bytes.length
  · rw [bind_eq ((takes_word32 bytes _).2 ⟨hlength, rfl⟩)]
  · obtain ⟨missing, hmissing⟩ := takes_word32.fails (Nat.lt_of_not_le hlength)
    rw [bind_fails hmissing, List.drop_eq_nil_of_le (by omega), hnext]
    rfl

/-- Two values and the text after them, at their places or one after the other. -/
theorem fields_eq (hα : Takes (Record.read : Reader α) m f)
    (hβ : Takes (Record.read : Reader β) n g) (make : α → β → String → CodeView)
    (record : List UInt8) {place textPlace : Nat} (htext : place + (m + n) = textPlace) :
    debugFields make record place textPlace =
      .ok (((do return some (make (← Record.read) (← Record.read)
        (CodeView.nameOf (← Reader.rest)))) : Reader (Option CodeView)).run'
          (record.drop place)).toOption.join := by
  rw [both_rest hα hβ (fun a b rest => some (make a b (CodeView.nameOf rest))), List.drop_drop,
    htext, debugFields]
  cases (both α β).run' (record.drop place) with
  | error fault => rfl
  | ok values =>
    simp only [cString_eq, ok_bind]
    rfl

end Readers

/-- The values of a debug record are at fixed places, since each takes a fixed number of bytes. -/
theorem codeView?_eq (record : List UInt8) : codeView? record = .ok (CodeView.parse? record) := by
  obtain ⟨vector, hvector⟩ := Reader.exists_takes_row Reader.takes_word8 16
  have hrun : (Record.read : Reader UInt32).run' record =
      ((Record.read : Reader UInt32) record).map Prod.fst := rfl
  unfold codeView? CodeView.parse? CodeView.reader
  rw [hrun]
  change _ = Except.ok (((Record.read >>= _ : Reader (Option CodeView)) record).map
    Prod.fst).toOption.join
  cases hsignature : (Record.read : Reader UInt32) record with
  | error fault =>
    rw [Reader.bind_fails hsignature]
    rfl
  | ok result =>
    obtain ⟨signature, rest⟩ := result
    obtain ⟨hlength, hrest⟩ := (Reader.takes_word32 record _).1 hsignature
    obtain rfl : record.drop 4 = rest := (Prod.mk.inj hrest).2
    rw [Reader.bind_eq hsignature]
    change (if signature = CodeView.pdb70Signature then _ else _) = _
    split
    · exact fields_eq hvector Reader.takes_word32 CodeView.pdb70 record rfl
    split
    · have hempty : ((do return some (CodeView.pdb20 (← Record.read) (← Record.read)
          (CodeView.nameOf (← Reader.rest)))) : Reader (Option CodeView)) [] =
          .error (.short 4 0) := rfl
      have hskip := toOption_skip hempty (record.drop 4)
      rw [List.drop_drop] at hskip
      change _ = Except.ok (Except.toOption (StateT.run' _ (record.drop 4))).join
      rw [hskip]
      exact fields_eq Reader.takes_word32 Reader.takes_word32 CodeView.pdb20 record rfl
    split
    · rw [back_eq hlength, ok_bind]
      rfl
    · rfl

/-- The digits of groups of bytes. Each group is split off where the bytes end at the latest, and
its digits take twice its size. -/
def groupDigits : Nat → List Nat → List UInt8 → Except Trap (List (List Char))
  | 0, _, _ => return []
  | _ + 1, _, [] => return []
  | bound + 1, sizes, bytes => do
    let size := min (sizes.headD 4) bytes.length
    let group ← front bytes size
    let left ← back bytes size
    let _ ← mul group.length 2
    let rest ← groupDigits bound sizes.tail left
    return Identity.digits group :: rest

theorem groupDigits_eq {bound : Nat} {sizes : List Nat} {bytes : List UInt8}
    (hsizes : ∀ size ∈ sizes, size ≤ 6) : groupDigits bound sizes bytes =
      .ok ((Identity.groupsUpTo bound sizes bytes).map Identity.digits) := by
  induction bound generalizing sizes bytes with
  | zero => rfl
  | succ bound ih =>
    cases bytes with
    | nil => rfl
    | cons b bytes =>
      have hhead : sizes.headD 4 ≤ 6 := by
        cases sizes with
        | nil => decide
        | cons size sizes => exact hsizes size List.mem_cons_self
      have htail : ∀ size ∈ sizes.tail, size ≤ 6 := fun size hsize =>
        hsizes size (List.mem_of_mem_tail hsize)
      have hroom : ((b :: bytes).take (sizes.headD 4)).length * 2 < UInt64.size := by
        simp only [List.length_take, UInt64.size]
        omega
      unfold groupDigits Identity.groupsUpTo
      simp only [front_eq (Nat.min_le_right _ _), back_eq (Nat.min_le_right _ _), ok_bind,
        ← List.take_eq_take_min, ← List.drop_eq_drop_min, mul_eq hroom, ih htail, List.map_cons]
      rfl

def identityText (bytes : List UInt8) : Except Trap String := do
  let groups ← groupDigits bytes.length [4, 2, 2, 2, 6] bytes
  return String.ofList (['-'].intercalate groups)

theorem identityText_eq (bytes : List UInt8) : identityText bytes = .ok (Identity.text bytes) := by
  rw [identityText, groupDigits_eq (by decide), ok_bind]
  rfl

def identityOf (record : Option CodeView) (timeStamp size : UInt32) : Except Trap String :=
  match record with
  | some record => identityText record.identityBytes
  | none =>
    identityText (LittleEndian.bytes 4 timeStamp.toNat ++ LittleEndian.bytes 4 size.toNat)

theorem identityOf_eq (record : Option CodeView) (timeStamp size : UInt32) :
    identityOf record timeStamp size = .ok (Identity.ofModule record timeStamp size) := by
  cases record with
  | none => exact identityText_eq _
  | some record => exact identityText_eq _

def agree (expected found : List UInt8) : Except Trap Bool :=
  if expected.length = found.length then return expected == found
  else if 16 ≤ expected.length ∧ 16 ≤ found.length then do
    let first ← front expected 16
    let second ← front found 16
    return first == second
  else return false

theorem agree_eq (expected found : List UInt8) :
    agree expected found = .ok (Identity.agree expected found) := by
  unfold agree Identity.agree
  split
  · rfl
  · split
    · next hlong =>
      rw [front_eq hlong.1, ok_bind, front_eq hlong.2, ok_bind, decide_eq_true hlong.1,
        decide_eq_true hlong.2]
      rfl
    · next hshort =>
      have hfalse : (decide (16 ≤ expected.length) && decide (16 ≤ found.length)) = false := by
        rw [← Bool.decide_and]
        exact decide_eq_false hshort
      rw [hfalse]
      rfl

def accepts (expected found : Option (List UInt8)) : Except Trap Bool :=
  match expected, found with
  | none, _ => return true
  | some expected, some found => agree expected found
  | some _, none => return false

theorem accepts_eq (expected found : Option (List UInt8)) :
    accepts expected found = .ok (Image.accepts expected found) := by
  cases expected with
  | none => rfl
  | some expected =>
    cases found with
    | none => rfl
    | some found => exact agree_eq expected found

section Images

variable (objectFile : Buffer → Except Trap (Except ObjectFault ObjectFile)) (disk : Disk)

def parseImage (path : String) (base : Address) (size : UInt64) : Guarded SnapshotFault Image := do
  match disk.read path with
  | .error fault => throw (.unreadable fault)
  | .ok data =>
    match ← objectFile data with
    | .error fault => throw (.badArgument (.image path fault))
    | .ok file => return ⟨path, file.identifier, Image.codeRanges file base size⟩

def imageOfFile (name : String) (expected : Option (List UInt8)) (base : Address) (size : UInt64)
    (path : String) : Guarded Diagnostic Image := do
  match ← (parseImage objectFile disk path base size).run with
  | .error fault => throw (.imageUnreadable path fault.message)
  | .ok image =>
    if ← accepts expected image.identifier then return image
    else throw (.imageMismatch name path)

def locate (name : String) (expected : Option (List UInt8)) (base : Address) (size : UInt64) :
    List String → Except Trap (Option Image × List Diagnostic)
  | [] => return (none, [])
  | directory :: rest => do
    let path := FilePath.join directory name
    if disk.isFile path then
      match ← (imageOfFile objectFile disk name expected base size path).run with
      | .ok image => return (some image, [])
      | .error report =>
        let (found, reports) ← locate name expected base size rest
        return (found, report :: reports)
    else locate name expected base size rest

def codeViewOf (c : Container) (record : ModuleRecord) : Guarded Malformed (Option CodeView) :=
  if record.codeView.size = 0 then return none
  else do
    let bytes ← pass (located c record.codeView)
    codeView? bytes.bytes

def moduleOf (c : Container) (directories : List String) (record : ModuleRecord) :
    Guarded Malformed (Module × List Diagnostic) := do
  let path ← string c record.nameOffset
  let codeView ← codeViewOf c record
  let (image, reports) ← locate objectFile disk (Module.nameOf path)
    (codeView.map CodeView.signatureBytes) ⟨record.base⟩ record.size.toUInt64 directories
  let identity ← identityOf codeView record.timeStamp record.size
  return ({
    path := path
    base := ⟨record.base⟩
    size := record.size.toUInt64
    identity := identity
    codeId := Identity.code record.timeStamp record.size
    codeView := codeView
    checksum := record.checksum
    timeStamp := record.timeStamp
    version := record.version.text?
    image := image }, reports)

def moduleList (c : Container) (platform : Platform) (directories : List String) :
    Guarded Malformed (ModuleList × List Diagnostic) := do
  let records ← modules c
  let resolved ← records.mapM (moduleOf objectFile disk c directories)
  let list := ModuleList.ofList (resolved.map Prod.fst)
  let reports := resolved.flatMap Prod.snd
  if platform.repeatsModules then
    let (kept, repeats) := list.withoutRepeats
    return (kept, reports ++ repeats)
  else return (list, reports)

variable {objectFile disk} {c : Container}
  (hobject : ∀ path data, disk.read path = .ok data →
    objectFile data = .ok (ObjectFile.parse data))

include hobject

theorem parseImage_eq (path : String) (base : Address) (size : UInt64) :
    parseImage objectFile disk path base size =
      pass (Image.parseWith ObjectFile.parse disk path base size) := by
  unfold parseImage Image.parseWith
  cases hread : disk.read path with
  | error fault => rfl
  | ok data =>
    simp only [hobject path data hread, lift_bind]
    cases ObjectFile.parse data with
    | error fault => rfl
    | ok file => rfl

theorem imageOfFile_eq (name : String) (expected : Option (List UInt8)) (base : Address)
    (size : UInt64) (path : String) : imageOfFile objectFile disk name expected base size path =
      pass (Image.ofFileWith ObjectFile.parse disk name expected base size path) := by
  unfold imageOfFile Image.ofFileWith
  rw [parseImage_eq hobject]
  change (liftM (Except.ok (Image.parseWith ObjectFile.parse disk path base size) :
    Except Trap _) >>= _) = _
  rw [lift_bind]
  cases Image.parseWith ObjectFile.parse disk path base size with
  | error fault => rfl
  | ok image =>
    simp only [accepts_eq, lift_bind]
    split
    · rfl
    · rfl

theorem locate_eq (name : String) (expected : Option (List UInt8)) (base : Address) (size : UInt64)
    (directories : List String) : locate objectFile disk name expected base size directories =
      .ok (Image.locate disk name expected base size directories) := by
  unfold Image.locate
  induction directories with
  | nil => rfl
  | cons directory rest ih =>
    unfold locate Image.locateWith
    simp only [imageOfFile_eq hobject]
    split
    · change (Except.ok (Image.ofFileWith ..) >>= _) = _
      rw [ok_bind]
      cases Image.ofFileWith ObjectFile.parse disk name expected base size
          (FilePath.join directory name) with
      | ok image => rfl
      | error report =>
        simp only [ih, ok_bind]
        rfl
    · exact ih

theorem moduleOf_eq (hc : Holdable c) (directories : List String) (record : ModuleRecord) :
    moduleOf objectFile disk c directories record =
      pass (Module.ofRecord c disk directories record) := by
  have hcodeView : codeViewOf c record = pass (Module.codeViewOf c record) := by
    unfold codeViewOf Module.codeViewOf
    split
    · rfl
    · rw [located_eq hc]
      simp only [codeView?_eq]
      cases c.located record.codeView with
      | error fault => rfl
      | ok bytes => rfl
  unfold moduleOf Module.ofRecord
  rw [string_eq hc]
  refine pass_bind fun path _ => ?_
  rw [hcodeView]
  refine pass_bind fun codeView _ => ?_
  rw [locate_eq hobject, lift_bind]
  simp only [identityOf_eq, lift_bind]
  rfl

theorem moduleList_eq (hc : Holdable c) (platform : Platform) (directories : List String) :
    moduleList objectFile disk c platform directories =
      pass (ModuleList.ofContainer c platform disk directories) := by
  unfold moduleList ModuleList.ofContainer
  rw [modules_eq hc]
  refine pass_bind fun records _ => ?_
  rw [mapM_eq_pass fun record _ => moduleOf_eq hobject hc directories record]
  refine pass_bind fun resolved _ => ?_
  simp only
  split
  · rfl
  · rfl

end Images

/-- The module before the place where a search by halves ends, if there is one. -/
def at? (list : ModuleList) (a : Address) : Except Trap (Option Module) := do
  let index := Search.boundary (fun m => m.base ≤ a) list.modules.toArray
  if index = 0 then return none
  else
    let m ← item list.modules (index - 1)
    return if m.contains a then some m else none

theorem at?_eq {list : ModuleList} (h : ModuleList.Ascending list.modules) (a : Address) :
    at? list a = .ok (list.at? a) := by
  obtain ⟨before, after, hsplit, hplace, _⟩ := ModuleList.exists_boundary h a
  rw [ModuleList.at?_eq_search h]
  unfold at?
  rw [hplace]
  rcases List.eq_nil_or_concat before with rfl | ⟨first, m, rfl⟩
  · rfl
  · have hitem : list.modules[first.length]? = some m := by
      rw [hsplit]
      simp
    have hlast : (list.modules.take (first.concat m).length).getLast? = some m := by
      rw [hsplit, List.take_left]
      simp
    rw [hlast]
    simp only [List.length_concat, Nat.add_sub_cancel, item_eq hitem]
    rfl

end CrashDump.Machine

import CrashDump.Proofs.Machine.Modules
import CrashDump.Proofs.Utf8

/-!
# Debug records

A debug record starts with a signature that says of which kind it is, and then has its values at
fixed places. Reading gives back what was written, and refuses a record only for its signature or
for what it lacks.
-/
namespace CrashDump.CodeView

/-- What may stand after a name: nothing, or a NUL and any bytes. -/
def EndsName (tail : List UInt8) : Prop := tail = [] ∨ ∃ rest, tail = 0 :: rest

/-- A debug record as bytes. One kind has an offset that nobody reads, and bytes may follow a
name. -/
def write (offset : UInt32) (tail : List UInt8) : CodeView → List UInt8
  | pdb70 guid age name => Record.write pdb70Signature ++ (guid.toList ++
      (Record.write age ++ (Buffer.bytes name.toUTF8 ++ tail)))
  | pdb20 signature age name => Record.write pdb20Signature ++ (Record.write offset ++
      (Record.write signature ++ (Record.write age ++ (Buffer.bytes name.toUTF8 ++ tail))))
  | elf buildId => Record.write elfSignature ++ buildId

/-- The signatures, each with the least size of its records. -/
def forms : List (UInt32 × Nat) :=
  [(pdb70Signature, 24), (pdb20Signature, 16), (elfSignature, 4)]

theorem write_bytes {count : Nat} (row : Vector UInt8 count) : Record.write row = row.toList := by
  have hwrite : ∀ b : UInt8, Record.write b = [b] := fun b =>
    congrArg (fun b => [b]) UInt8.ofNat_toNat
  change row.toList.flatMap Record.write = row.toList
  rw [funext hwrite]
  simp

/-- A name without NUL is read up to where it ends. -/
theorem nameOf_append {name : String} {tail : List UInt8} (hname : '\x00' ∉ name.toList)
    (htail : EndsName tail) : nameOf (Buffer.bytes name.toUTF8 ++ tail) = name := by
  have hbytes : ∀ b ∈ Buffer.bytes name.toUTF8, (b != 0) = true := by
    intro b hb
    rw [bne_iff_ne]
    rintro rfl
    exact Utf8.zero_not_mem_toUTF8 hname hb
  have hstop : tail.takeWhile (fun b => b != 0) = [] := by
    rcases htail with rfl | ⟨rest, rfl⟩
    · rfl
    · exact List.takeWhile_cons_of_neg (by decide)
  rw [nameOf, List.takeWhile_append_of_pos hbytes, hstop, List.append_nil, Utf8.decode_toUTF8]

theorem reader_write (view : CodeView) (offset : UInt32) {tail : List UInt8}
    (hname : ∀ name, view.debugFile? = some name → '\x00' ∉ name.toList) (htail : EndsName tail) :
    reader (view.write offset tail) = .ok (some view, []) := by
  cases view with
  | pdb70 guid age name =>
    have hread := nameOf_append (hname name rfl) htail
    rw [write, ← write_bytes, reader, Reader.read_bind]
    change ((Record.read : Reader (Vector UInt8 16)) >>= fun guid => Record.read >>= fun age =>
      Reader.rest >>= fun rest => pure (some (pdb70 guid age (nameOf rest)))) _ = _
    rw [Reader.read_bind, Reader.read_bind]
    conv => rhs; rw [← hread]
    rfl
  | pdb20 signature age name =>
    have hread := nameOf_append (hname name rfl) htail
    rw [write, reader, Reader.read_bind]
    change ((Record.read : Reader UInt32) >>= fun _ => Record.read >>= fun signature =>
      Record.read >>= fun age =>
        Reader.rest >>= fun rest => pure (some (pdb20 signature age (nameOf rest)))) _ = _
    rw [Reader.read_bind, Reader.read_bind, Reader.read_bind]
    conv => rhs; rw [← hread]
    rfl
  | elf buildId =>
    rw [write, reader, Reader.read_bind]
    rfl

theorem parse?_write (view : CodeView) (offset : UInt32) {tail : List UInt8}
    (hname : ∀ name, view.debugFile? = some name → '\x00' ∉ name.toList) (htail : EndsName tail) :
    parse? (view.write offset tail) = some view := by
  change ((reader (view.write offset tail)).map Prod.fst).toOption.join = some view
  rw [reader_write view offset hname htail]
  rfl

/-- Two values are found at their place exactly if all their bytes are there. -/
theorem isSome_of_fields {α β : Type} [Record α] [Record β] {m n : Nat} {f : List UInt8 → α}
    {g : List UInt8 → β} (hα : Reader.Takes (Record.read : Reader α) m f)
    (hβ : Reader.Takes (Record.read : Reader β) n g) {make : α → β → String → CodeView}
    {record : List UInt8} {place textPlace : Nat} {view : Option CodeView}
    (h : Machine.debugFields make record place textPlace = .ok view) :
    view.isSome = true ↔ m + n ≤ (record.drop place).length := by
  have hboth : Reader.Takes (Machine.both α β) (m + n) _ :=
    hα.bind fun a => hβ.bind fun b => Reader.takes_pure (a, b)
  have hrun : (Machine.both α β).run' (record.drop place) =
      (Machine.both α β (record.drop place)).map Prod.fst := rfl
  rw [Machine.debugFields, hrun] at h
  by_cases hsize : m + n ≤ (record.drop place).length
  · rw [(hboth _ _).2 ⟨hsize, rfl⟩] at h
    simp only [Except.map, Machine.cString_eq, ok_bind] at h
    obtain rfl := Except.ok.inj h
    exact iff_of_true rfl hsize
  · obtain ⟨fault, hfault⟩ := hboth.fails (Nat.lt_of_not_le hsize)
    rw [hfault] at h
    obtain rfl := Except.ok.inj h
    exact iff_of_false Bool.false_ne_true hsize

theorem signatures_ne : pdb70Signature ≠ pdb20Signature ∧ pdb70Signature ≠ elfSignature ∧
    pdb20Signature ≠ elfSignature := by decide

/-- A record is read exactly if it starts with a signature and has the least size for that. -/
theorem isSome_parse?_iff (record : List UInt8) : (parse? record).isSome = true ↔
    ∃ form ∈ forms, record.take 4 = Record.write form.1 ∧ form.2 ≤ record.length := by
  obtain ⟨vector, hvector⟩ := Reader.exists_takes_row Reader.takes_word8 16
  obtain ⟨hne, hne', hne''⟩ := signatures_ne
  have hrun : (Record.read : Reader UInt32).run' record =
      ((Record.read : Reader UInt32) record).map Prod.fst := rfl
  have hmachine := Machine.codeView?_eq record
  rw [Machine.codeView?, hrun] at hmachine
  simp only [forms, List.exists_mem_cons_iff, List.not_mem_nil, false_and, exists_false, or_false]
  by_cases hsize : 4 ≤ record.length
  · have hstart : ∀ signature : UInt32, record.take 4 = Record.write signature ↔
        Reader.word32 record = signature := fun _ => (Reader.word32_eq_iff hsize).symm
    rw [(Reader.takes_word32 record _).2 ⟨hsize, rfl⟩] at hmachine
    simp only [Except.map, hstart] at hmachine ⊢
    generalize Reader.word32 record = signature at hmachine ⊢
    split at hmachine
    · next h70 =>
      rw [isSome_of_fields hvector Reader.takes_word32 hmachine, List.length_drop, h70]
      simp only [hne, hne', true_and, false_and, or_false]
      omega
    split at hmachine
    · next h70 h20 =>
      rw [isSome_of_fields Reader.takes_word32 Reader.takes_word32 hmachine, List.length_drop, h20]
      simp only [hne.symm, hne'', true_and, false_and, or_false, false_or]
      omega
    split at hmachine
    · next h70 h20 helf =>
      rw [Machine.back_eq hsize] at hmachine
      have hview := Except.ok.inj hmachine
      simp [← hview, helf, hsize]
    · next h70 h20 helf =>
      have hview := Except.ok.inj hmachine
      simp [← hview, h70, h20, helf]
  · obtain ⟨fault, hfault⟩ := Reader.takes_word32.fails (Nat.lt_of_not_le hsize)
    rw [hfault] at hmachine
    have hview := Except.ok.inj hmachine
    simp only [← hview]
    simp
    omega

/-- A record that was written is read back as it was, whatever stands after the NUL of its name.
Which bytes are a record is told by their signature and their number, and no access is outside
them. -/
theorem debugRecords_exact :
    (∀ (view : CodeView) (offset : UInt32) (tail : List UInt8),
      (∀ name, view.debugFile? = some name → '\x00' ∉ name.toList) → EndsName tail →
      parse? (view.write offset tail) = some view) ∧
    (∀ record, (parse? record).isSome = true ↔
      ∃ form ∈ forms, record.take 4 = Record.write form.1 ∧ form.2 ≤ record.length) ∧
    ∀ record, Machine.codeView? record = .ok (parse? record) :=
  ⟨fun view offset _ hname htail => parse?_write view offset hname htail, isSome_parse?_iff,
    Machine.codeView?_eq⟩

/-- A name with characters of two bytes and of four, a NUL and a byte after it. -/
theorem debugRecords_exact_named :
    let view := pdb20 0x11223344 1 "aé😀.pdb"
    EndsName [0, 0xff] ∧ parse? (view.write 7 [0, 0xff]) = some view := by
  intro view
  have htail : EndsName [0, 0xff] := .inr ⟨[0xff], rfl⟩
  have hname : ∀ name, view.debugFile? = some name → '\x00' ∉ name.toList := by
    intro name h
    obtain rfl := Option.some.inj h
    decide
  exact ⟨htail, debugRecords_exact.1 view 7 [0, 0xff] hname htail⟩

end CrashDump.CodeView

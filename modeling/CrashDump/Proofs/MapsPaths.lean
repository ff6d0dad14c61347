import CrashDump.Proofs.MapsLines
import CrashDump.Proofs.Utf8

/-!
# Names of mappings

A mapping is named by the path at the end of its line as it stands there, with three exceptions: a
segment of shared memory, the sum of a whole process, and the stack of a thread whose number is not
in its shortest form. The paths at which a program can end are among the first and the last of
these.
-/
namespace CrashDump.MapsEntry

/-- Paths that are kept as they stand. -/
structure Kept (path : List Char) : Prop where
  rollup : path ≠ "[rollup]".toList
  segment : ¬ "/SYSV".toList <+: path
  stack : "[stack:".toList <+: path →
    ∃ n < UInt32.size, path = "[stack:".toList ++ Nat.toDigits 10 n ++ [']']

/-- How a mapping is named after a path that has no blanks around it. -/
structure Names (path : List Char) (name : Option String) : Prop where
  anonymous : name = none ↔ path = []
  kept : path ≠ [] → (name = some (String.ofList path) ↔ Kept path)
  segment : ∀ n < UInt32.size, ∀ rest, path = "/SYSV".toList ++ Hex.digits 8 n ++ rest →
    name = some ("Vsys(" ++ toString (UInt32.ofNat n).toInt32.toInt ++ ")")

variable {n : Nat} {path text : List Char} {shown : String} {name : Option String}
  {entry : MapsEntry}

theorem toList_stack (n : Nat) : ("[stack:" ++ toString n ++ "]").toList =
    "[stack:".toList ++ Nat.toDigits 10 n ++ [']'] := by
  simp [Nat.toString_eq_repr]

theorem exists_of_threadStack? (h : threadStack? path = some shown) :
    ∃ n < UInt32.size, shown.toList = "[stack:".toList ++ Nat.toDigits 10 n ++ [']'] := by
  obtain ⟨⟨_, thread⟩, _, h⟩ := Option.bind_eq_some_iff.1 h
  obtain ⟨n, hn, h⟩ := Option.bind_eq_some_iff.1 h
  obtain rfl := Option.some.inj h
  exact ⟨n, Numeral.lt_of_unsigned? hn, toList_stack n⟩

theorem threadStack?_toDigits (hn : n < UInt32.size) :
    threadStack? ("[stack:".toList ++ Nat.toDigits 10 n ++ [']']) =
      some ("[stack:" ++ toString n ++ "]") := by
  have hcolon : ':' ∉ Nat.toDigits 10 n := by
    intro hmem
    exact absurd (Nat.isDigit_of_mem_toDigits (by decide) (by decide) hmem) (by decide)
  have hpieces : twoPieces? ':' ("stack".toList ++ ':' :: Nat.toDigits 10 n) =
      some ("stack".toList, Nat.toDigits 10 n) := twoPieces?_append (by decide) hcolon
  have hnumber : Numeral.unsigned? 10 UInt32.size (Nat.toDigits 10 n) = some n :=
    Numeral.unsigned?_of_value? Nat.toDigits_ne_nil
      (Numeral.value?_toDigits (by decide) (by decide) n) hn
  have hinside : ("[stack:".toList ++ Nat.toDigits 10 n ++ [']']).tail.dropLast =
      "stack".toList ++ ':' :: Nat.toDigits 10 n := by
    change ("stack:".toList ++ Nat.toDigits 10 n ++ [']']).dropLast = _
    rw [List.dropLast_concat]
    rfl
  rw [threadStack?, hinside, stackName?, hpieces]
  simp [hnumber]

theorem sharedMemory?_digits (hn : n < UInt32.size) (rest : List Char) :
    sharedMemory? ("/SYSV".toList ++ Hex.digits 8 n ++ rest) =
      some ("Vsys(" ++ toString (UInt32.ofNat n).toInt32.toInt ++ ")") := by
  have hkey : (("/SYSV".toList ++ Hex.digits 8 n ++ rest).drop 5).take 8 = Hex.digits 8 n := by
    rw [List.append_assoc, List.drop_left' (by decide), List.take_left' (Hex.length_digits 8 n)]
  have hne : Hex.digits 8 n ≠ [] := by
    rw [← List.length_pos_iff, Hex.length_digits]
    decide
  have hvalue : Numeral.value? 16 (Hex.digits 8 n) = some n :=
    (Hex.value?_digits 8 n).trans (congrArg some (Nat.mod_eq_of_lt hn))
  rw [sharedMemory?, hkey, segmentName?, Numeral.unsigned?_of_value? hne hvalue hn]
  rfl

theorem ne_segment_of_stack (h : "[stack:".toList <+: path) : ¬ "/SYSV".toList <+: path := by
  intro hsegment
  have hboth := List.prefix_of_prefix_length_le hsegment h (by decide)
  exact absurd hboth (by decide)

theorem kept_of_stack_iff (hstack : "[stack:".toList <+: path)
    (h : threadStack? path = some shown) : Kept path ↔ shown.toList = path := by
  constructor
  · intro hkept
    obtain ⟨n, hn, rfl⟩ := hkept.stack hstack
    obtain rfl := Option.some.inj ((threadStack?_toDigits hn).symm.trans h)
    exact toList_stack n
  · rintro rfl
    obtain ⟨n, hn, hshown⟩ := exists_of_threadStack? h
    refine ⟨fun hrollup => ?_, ne_segment_of_stack hstack, fun _ => ⟨n, hn, hshown⟩⟩
    rw [hrollup] at hstack
    exact absurd hstack (by decide)

theorem toList_ne_of_sharedMemory? (hsegment : "/SYSV".toList <+: path)
    (h : sharedMemory? path = some shown) : shown.toList ≠ path := by
  obtain ⟨key, _, h⟩ := Option.bind_eq_some_iff.1 h
  obtain rfl := Option.some.inj h
  obtain ⟨rest, rfl⟩ := hsegment
  generalize toString (UInt32.ofNat key).toInt32.toInt = digits
  intro heq
  rw [String.toList_append, String.toList_append] at heq
  exact absurd (List.head_eq_of_cons_eq heq) (by decide)

/-- A path that is no segment has the name that it is kept by, or another one. -/
theorem names_some (hne : path ≠ []) (hsegment : ¬ "/SYSV".toList <+: path)
    (hkept : Kept path ↔ shown.toList = path) : Names path (some shown) := by
  refine ⟨iff_of_false nofun hne, fun _ => ?_, ?_⟩
  · rw [hkept, Option.some.injEq, ← String.toList_inj, String.toList_ofList]
  · rintro n _ rest rfl
    exact absurd (List.prefix_append_of_prefix (List.prefix_append _ _)) hsegment

theorem names_segment (hsegment : "/SYSV".toList <+: path)
    (h : sharedMemory? path = some shown) : Names path (some shown) := by
  have hne : path ≠ [] := hsegment.ne_nil (by decide)
  refine ⟨iff_of_false nofun hne, fun _ => ?_, ?_⟩
  · refine iff_of_false (fun heq => ?_) fun hkept => hkept.segment hsegment
    rw [Option.some.inj heq] at h
    exact toList_ne_of_sharedMemory? hsegment h String.toList_ofList
  · rintro n hn rest rfl
    rw [← h, sharedMemory?_digits hn]

theorem names_of_path? (h : path? text = some name) : Names (Text.trim text) name := by
  simp only [path?, List.isPrefixOf_iff_prefix, List.isEmpty_iff] at h
  generalize Text.trim text = path at h ⊢
  split_ifs at h with hempty hrollup hstack hsegment
  · obtain rfl := Option.some.inj h
    exact ⟨iff_of_true rfl hempty, fun hne => absurd hempty hne, by simp [hempty]⟩
  · obtain rfl := Option.some.inj h
    have hnot : ¬ Kept path := fun hkept => hkept.rollup hrollup
    rw [hrollup] at hempty hnot ⊢
    exact names_some hempty (by decide) (iff_of_false hnot (by decide))
  · obtain ⟨shown, hshown, rfl⟩ := Option.map_eq_some_iff.1 h
    exact names_some hempty (ne_segment_of_stack hstack) (kept_of_stack_iff hstack hshown)
  · obtain ⟨shown, hshown, rfl⟩ := Option.map_eq_some_iff.1 h
    exact names_segment hsegment hshown
  · obtain rfl := Option.some.inj h
    have hkept : Kept path := ⟨hrollup, hsegment, fun hprefix => absurd hprefix hstack⟩
    exact names_some hempty hsegment (iff_of_true hkept String.toList_ofList)

/-- Paths that cannot be cut at the bytes where a library cuts them: the last character of a stack
is of several bytes, or no character of a segment ends at byte 13. -/
inductive Uncuttable (path : List Char) : Prop
  | stack (h : "[stack:".toList <+: path) (last : ∃ c ∈ path.getLast?, c.utf8Size ≠ 1)
  | segment (h : "/SYSV".toList <+: path) (key : ∀ front, front <+: path → Utf8.size front ≠ 13)

/-- A line at which a program can end: its fields can be read up to the path. -/
structure Stops (line : MapsLine) : Prop where
  split : line.Split
  small : isCapital line.text = false
  fields : ∃ bare, line.unnamed? = some bare
  path : Uncuttable (Text.trim line.path)

theorem isNone_splitAt?_pred_iff (hne : path ≠ []) :
    (Utf8.splitAt? (Utf8.size path - 1) path).isNone = true ↔
      ∃ c ∈ path.getLast?, c.utf8Size ≠ 1 := by
  rw [Option.isNone_iff_eq_none, Option.eq_none_iff_forall_not_mem]
  constructor
  · intro h
    refine ⟨path.getLast hne, List.getLast?_eq_some_getLast hne, fun hone => ?_⟩
    exact h (path.dropLast, [path.getLast hne]) ((Utf8.splitAt?_pred_eq_some_iff hne).2
      ⟨_, rfl, (List.dropLast_concat_getLast hne).symm, hone⟩)
  · rintro ⟨c, hc, hwide⟩ ⟨front, back⟩ hsplit
    obtain ⟨last, _, rfl, hone⟩ := (Utf8.splitAt?_pred_eq_some_iff hne).1 hsplit
    obtain rfl : last = c := by simpa using hc
    exact hwide hone

theorem haltsAt_iff : haltsAt path = true ↔ Uncuttable path := by
  simp only [haltsAt, List.isPrefixOf_iff_prefix]
  split_ifs with hstack hsegment
  · rw [isNone_splitAt?_pred_iff (hstack.ne_nil (by decide))]
    refine ⟨.stack hstack, fun h => ?_⟩
    cases h with
    | stack _ hlast => exact hlast
    | segment hsegment _ => exact absurd hsegment (ne_segment_of_stack hstack)
  · rw [Option.isNone_iff_eq_none, Utf8.splitAt?_eq_none_iff]
    refine ⟨.segment hsegment, fun h => ?_⟩
    cases h with
    | stack h _ => exact absurd h hstack
    | segment _ hkey => exact hkey
  · refine iff_of_false not_false fun h => ?_
    cases h with
    | stack h _ => exact hstack h
    | segment h _ => exact hsegment h

theorem halts_iff : halts text = true ↔ ∃ line : MapsLine, line.text = text ∧ Stops line := by
  rw [halts, Option.any_eq_true]
  constructor
  · rintro ⟨⟨bare, path⟩, hbefore, hhalts⟩
    obtain ⟨hsmall, line, hsplit, rfl, hbare, rfl⟩ := beforePath?_eq_some_iff.1 hbefore
    exact ⟨line, rfl, hsplit, hsmall, ⟨bare, hbare⟩, haltsAt_iff.1 hhalts⟩
  · rintro ⟨line, rfl, hstops⟩
    obtain ⟨bare, hbare⟩ := hstops.fields
    exact ⟨(bare, line.path), beforePath?_eq_some_iff.2
      ⟨hstops.small, line, hstops.split, rfl, hbare, rfl⟩, haltsAt_iff.2 hstops.path⟩

theorem haltsIn_iff {text : String} : haltsIn text = true ↔
    ∃ line : MapsLine, line.text ∈ Text.lines text.toList ∧ Stops line := by
  rw [haltsIn, List.any_eq_true]
  constructor
  · rintro ⟨_, hmem, hhalts⟩
    obtain ⟨line, rfl, hstops⟩ := halts_iff.1 hhalts
    exact ⟨line, hmem, hstops⟩
  · rintro ⟨line, hmem, hstops⟩
    exact ⟨line.text, hmem, halts_iff.2 ⟨line, rfl, hstops⟩⟩

/-- Every line that can be read names its mapping after the path in it. -/
theorem paths_exact {text : String} {line : List Char} (hline : line ∈ Text.lines text.toList)
    (h : ofLine? line = some entry) :
    (entry.range.start ≤ entry.range.stop → entry ∈ ofText text) ∧
      ∃ fields : MapsLine, fields.Split ∧ fields.text = line ∧
        Names (Text.trim fields.path) entry.path := by
  constructor
  · intro horder
    rw [ofText_eq, List.mem_filterMap]
    exact ⟨line, hline, (added_of_ofLine? h).trans (if_pos horder)⟩
  · obtain ⟨_, fields, hsplit, htext, hread⟩ := ofLine?_eq_some_iff.1 h
    exact ⟨fields, hsplit, htext, names_of_path? (MapsLine.fields_of_read? hread).2⟩

def segmentLine : MapsLine where
  address := "1000-2000".toList
  letters := "rw-s".toList
  offset := "00000000".toList
  device := "00:01".toList
  inode := "5".toList
  path := "/SYSV0000162e (deleted)".toList

def segmentEntry : MapsEntry :=
  ⟨⟨⟨0x1000⟩, ⟨0x2000⟩⟩, ⟨true, true, false⟩, false, 0, some "Vsys(5678)"⟩

theorem paths_exact_segment :
    let text := String.ofList segmentLine.text
    segmentLine.text ∈ Text.lines text.toList ∧ ofLine? segmentLine.text = some segmentEntry ∧
      segmentEntry ∈ ofText text ∧ ∃ fields : MapsLine, fields.Split ∧
        fields.text = segmentLine.text ∧ Names (Text.trim fields.path) (some "Vsys(5678)") := by
  intro text
  have hline : segmentLine.text ∈ Text.lines text.toList := by decide
  have h : ofLine? segmentLine.text = some segmentEntry := by decide
  obtain ⟨hmem, hnames⟩ := paths_exact hline h
  exact ⟨hline, h, hmem (by decide), hnames⟩

/-- A segment of shared memory loses the name that its line has. -/
theorem exists_path_ne : ∃ (line : MapsLine) (entry : MapsEntry), line.Split ∧
    ofText (String.ofList line.text) = [entry] ∧ Text.trim line.path ≠ [] ∧
      entry.path ≠ some (String.ofList (Text.trim line.path)) := by
  refine ⟨segmentLine, segmentEntry, ?_, ?_, ?_, ?_⟩
  · constructor <;> decide
  · decide
  · decide
  · decide

end CrashDump.MapsEntry

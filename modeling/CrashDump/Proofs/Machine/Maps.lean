import CrashDump.Proofs.MapsPaths
import CrashDump.Proofs.Machine.Word

/-!
# Lines of memory maps on the machine

A library reads the lines, and it takes the parts of a path by bytes without a check. The machine
stops exactly at the paths that cannot be cut there; otherwise the parts are those that a cut by
characters gives.
-/
namespace CrashDump.Machine

/-- The part of a text from one byte of its encoding to another, which nobody checks. -/
def cutText (text : List Char) (start stop : Nat) : Except Trap (List Char) :=
  match Utf8.splitAt? stop text with
  | none => .error .outside
  | some (front, _) =>
    match Utf8.splitAt? start front with
    | none => .error .outside
    | some (_, inside) => .ok inside

/-- The stack of a thread, without the first and the last byte of its path. -/
def threadStack? (path : List Char) : Except Trap (Option String) := do
  let stop ← sub (Utf8.size path) 1
  let inside ← cutText path 1 stop
  return MapsEntry.stackName? inside

/-- A segment of shared memory, whose key is eight bytes. -/
def sharedMemory? (path : List Char) : Except Trap (Option String) := do
  let key ← cutText path 5 13
  return MapsEntry.segmentName? key

def path? (text : List Char) : Except Trap (Option (Option String)) :=
  let path := Text.trim text
  if path.isEmpty then .ok (some none)
  else if path = "[rollup]".toList then .ok (some (some "Rollup"))
  else if "[stack:".toList.isPrefixOf path then do
    let name ← threadStack? path
    return name.map some
  else if "/SYSV".toList.isPrefixOf path then do
    let name ← sharedMemory? path
    return name.map some
  else .ok (some (some (String.ofList path)))

def mapsLine (line : List Char) : Except Trap (Option MapsEntry) :=
  match MapsEntry.beforePath? line with
  | none => .ok none
  | some (entry, path) => do
    let name ← path? path
    return name.map fun name => { entry with path := name }

variable {path front inside back : List Char}

theorem cutText_eq {start stop : Nat} (hstart : Utf8.size front = start)
    (hstop : Utf8.size (front ++ inside) = stop) :
    cutText (front ++ inside ++ back) start stop = .ok inside := by
  subst hstart hstop
  rw [cutText, Utf8.splitAt?_append]
  dsimp only
  rw [Utf8.splitAt?_append]

theorem cutText_eq_error {start stop : Nat} (h : Utf8.splitAt? stop path = none) :
    cutText path start stop = .error .outside := by
  rw [cutText, h]

/-- A path that can be cut has a last character of one byte. -/
theorem threadStack?_eq (h : "[stack:".toList <+: path) : threadStack? path =
    if MapsEntry.haltsAt path then .error .outside else .ok (MapsEntry.threadStack? path) := by
  have hne : path ≠ [] := h.ne_nil (by decide)
  have hsize : 7 ≤ Utf8.size path := Utf8.size_mono h
  rw [threadStack?, sub_eq (by omega), ok_bind, MapsEntry.haltsAt,
    if_pos (List.isPrefixOf_iff_prefix.2 h)]
  cases hsplit : Utf8.splitAt? (Utf8.size path - 1) path with
  | none =>
    rw [cutText_eq_error hsplit]
    rfl
  | some parts =>
    obtain ⟨front, back⟩ := parts
    obtain ⟨rfl, hfront⟩ := Utf8.splitAt?_eq_some_iff.1 hsplit
    obtain ⟨last, rfl, -, -⟩ := (Utf8.splitAt?_pred_eq_some_iff hne).1 hsplit
    have hbracket : "[".toList <+: front := by
      refine Utf8.prefix_of_size_lt (List.IsPrefix.trans (by decide) h) (List.prefix_append _ _) ?_
      rw [hfront]
      exact Nat.lt_sub_of_add_lt (Nat.lt_of_lt_of_le (by decide) hsize)
    obtain ⟨inside, rfl⟩ := hbracket
    have hone : Utf8.size "[".toList = 1 := rfl
    have hinside : ("[".toList ++ inside ++ [last]).tail.dropLast = inside := List.dropLast_concat
    rw [cutText_eq hone hfront, ok_bind, MapsEntry.threadStack?, hinside]
    rfl

theorem segmentName?_eq_none {key : List Char} {c : Char} (hc : c ∈ key) (hwide : c.utf8Size ≠ 1) :
    MapsEntry.segmentName? key = none := by
  rw [MapsEntry.segmentName?]
  cases hkey : Numeral.unsigned? 16 UInt32.size key with
  | none => rfl
  | some n =>
    obtain ⟨hnumber, _⟩ := (Numeral.unsigned?_eq_some_iff (by decide)).1 hkey
    exact absurd (hnumber.utf8Size_eq_one hc) hwide

/-- Eight bytes that are a number are eight characters. -/
theorem segmentName?_take {key : List Char} (h : Utf8.size key = 8) (back : List Char) :
    MapsEntry.segmentName? ((key ++ back).take 8) = MapsEntry.segmentName? key := by
  by_cases hall : ∀ c ∈ key, c.utf8Size = 1
  · rw [List.take_left' ((Utf8.size_eq_length hall).symm.trans h)]
  · push Not at hall
    obtain ⟨c, hc, hwide⟩ := hall
    have hlength : key.length ≤ 8 := (Utf8.length_le_size key).trans_eq h
    have hmem : c ∈ (key ++ back).take 8 := by
      rw [List.take_append, List.take_of_length_le hlength]
      exact List.mem_append_left _ hc
    rw [segmentName?_eq_none hc hwide, segmentName?_eq_none hmem hwide]

theorem sharedMemory?_eq (h : "/SYSV".toList <+: path) : sharedMemory? path =
    if MapsEntry.haltsAt path then .error .outside else .ok (MapsEntry.sharedMemory? path) := by
  have hstack : ¬ "[stack:".toList.isPrefixOf path = true := fun hstack =>
    MapsEntry.ne_segment_of_stack (List.isPrefixOf_iff_prefix.1 hstack) h
  rw [sharedMemory?, MapsEntry.haltsAt, if_neg hstack, if_pos (List.isPrefixOf_iff_prefix.2 h)]
  cases hsplit : Utf8.splitAt? 13 path with
  | none =>
    rw [cutText_eq_error hsplit]
    rfl
  | some parts =>
    obtain ⟨front, back⟩ := parts
    obtain ⟨rfl, hfront⟩ := Utf8.splitAt?_eq_some_iff.1 hsplit
    obtain ⟨key, rfl⟩ : "/SYSV".toList <+: front :=
      Utf8.prefix_of_size_lt h (List.prefix_append _ _) (hfront ▸ by decide)
    have hfive : Utf8.size "/SYSV".toList = 5 := rfl
    have hkey : Utf8.size key = 8 := by
      rw [Utf8.size_append] at hfront
      exact Nat.add_left_cancel hfront
    have hdrop : ("/SYSV".toList ++ key ++ back).drop 5 = key ++ back := by
      rw [List.append_assoc, List.drop_left' (by decide)]
    rw [cutText_eq hfive hfront, ok_bind, MapsEntry.sharedMemory?, hdrop, segmentName?_take hkey]
    rfl

/-- The machine stops exactly at the paths that cannot be cut. -/
theorem path?_eq (text : List Char) : path? text =
    if MapsEntry.haltsAt (Text.trim text) then .error .outside else .ok (MapsEntry.path? text) := by
  simp only [path?, MapsEntry.path?]
  generalize Text.trim text = path
  -- A path that starts like a stack or a segment is neither empty nor the sum of a process.
  have hother : ∀ {phrase}, phrase.isPrefixOf path = true → phrase ≠ [] →
      ¬ phrase <+: "[rollup]".toList → ¬ path.isEmpty = true ∧ path ≠ "[rollup]".toList := by
    intro phrase hphrase hne hrollup
    rw [List.isPrefixOf_iff_prefix] at hphrase
    exact ⟨fun hempty => hphrase.ne_nil hne (List.isEmpty_iff.1 hempty),
      fun heq => hrollup (heq ▸ hphrase)⟩
  by_cases hstack : "[stack:".toList.isPrefixOf path = true
  · obtain ⟨hempty, hrollup⟩ := hother hstack (by decide) (by decide)
    simp only [hempty, hrollup, hstack, if_true, if_false,
      threadStack?_eq (List.isPrefixOf_iff_prefix.1 hstack)]
    cases MapsEntry.haltsAt path with
    | true => rfl
    | false => rfl
  by_cases hsegment : "/SYSV".toList.isPrefixOf path = true
  · obtain ⟨hempty, hrollup⟩ := hother hsegment (by decide) (by decide)
    simp only [hempty, hrollup, hstack, hsegment, if_true, if_false,
      sharedMemory?_eq (List.isPrefixOf_iff_prefix.1 hsegment)]
    cases MapsEntry.haltsAt path with
    | true => rfl
    | false => rfl
  · have hcut : MapsEntry.haltsAt path = false := (if_neg hstack).trans (if_neg hsegment)
    rw [hcut, if_neg Bool.false_ne_true, if_neg hstack, if_neg hsegment, if_neg hstack,
      if_neg hsegment]
    split_ifs
    · rfl
    · rfl
    · rfl

theorem mapsLine_eq (line : List Char) : mapsLine line =
    if MapsEntry.halts line then .error .outside else .ok (MapsEntry.ofLine? line) := by
  rw [mapsLine, MapsEntry.halts, MapsEntry.ofLine?]
  cases MapsEntry.beforePath? line with
  | none => rfl
  | some parts =>
    obtain ⟨entry, path⟩ := parts
    simp only [path?_eq, Option.any_some]
    cases MapsEntry.haltsAt (Text.trim path) with
    | true => rfl
    | false =>
      cases hpath : MapsEntry.path? path with
      | none => simp [hpath]
      | some name => simp [hpath]

end CrashDump.Machine

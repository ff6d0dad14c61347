import CrashDump.Process.Maps
import CrashDump.Proofs.Lines
import CrashDump.Proofs.Numerals

/-!
# Lines of a memory map

A line is its six fields with a space between any two, and all that follows the fifth space is the
last of them. Each line is read by itself, so a text gives the entries of those of its lines that
can be read, in their order.
-/
namespace CrashDump

/-- The fields of a line. -/
structure MapsLine where
  address : List Char
  letters : List Char
  offset : List Char
  device : List Char
  inode : List Char
  path : List Char

namespace MapsLine

def text (line : MapsLine) : List Char :=
  line.address ++ ' ' :: (line.letters ++ ' ' :: (line.offset ++ ' ' :: (line.device ++ ' ' ::
    (line.inode ++ ' ' :: line.path))))

/-- Only the path may have spaces. -/
structure Split (line : MapsLine) : Prop where
  address : ' ' ∉ line.address
  letters : ' ' ∉ line.letters
  offset : ' ' ∉ line.offset
  device : ' ' ∉ line.device
  inode : ' ' ∉ line.inode

/-- What the fields before the path say, if all of them can be read. -/
def unnamed? (line : MapsLine) : Option MapsEntry :=
  MapsEntry.unnamed? line.address line.letters line.offset line.device line.inode

def read? (line : MapsLine) : Option MapsEntry := do
  let entry ← line.unnamed?
  return { entry with path := ← MapsEntry.path? line.path }

/-- The line with one more character at its end. -/
def concat (line : MapsLine) (c : Char) : MapsLine := { line with path := line.path ++ [c] }

variable {line : MapsLine} {rest : List Char} {c : Char}

theorem split_concat : (line.concat c).Split ↔ line.Split :=
  ⟨fun ⟨h₁, h₂, h₃, h₄, h₅⟩ => ⟨h₁, h₂, h₃, h₄, h₅⟩,
    fun ⟨h₁, h₂, h₃, h₄, h₅⟩ => ⟨h₁, h₂, h₃, h₄, h₅⟩⟩

theorem text_concat (line : MapsLine) (c : Char) : (line.concat c).text = line.text ++ [c] := by
  simp [text, concat]

theorem read?_concat (hc : Text.isBlank c = true) : (line.concat c).read? = line.read? := by
  have htrim : Text.trim (line.path ++ [c]) = Text.trim line.path := Text.trim_concat hc line.path
  simp only [read?, unnamed?, concat, MapsEntry.path?, htrim]

theorem exists_concat (line : MapsLine) (hc : c ≠ ' ') (h : line.text = rest ++ [c]) :
    ∃ front : MapsLine, line = front.concat c := by
  have hlast := congrArg List.getLast? h
  obtain ⟨address, letters, offset, device, inode, path⟩ := line
  rcases List.eq_nil_or_concat path with rfl | ⟨path, last, rfl⟩
  · obtain rfl : ' ' = c := by simpa [text, List.getLast?_cons] using hlast
    exact absurd rfl hc
  · obtain rfl : last = c := by simpa [text, List.getLast?_cons] using hlast
    exact ⟨⟨address, letters, offset, device, inode, path⟩, by simp [concat]⟩

theorem range?_of_unnamed? {entry : MapsEntry} (h : line.unnamed? = some entry) :
    MapsEntry.range? line.address = some entry.range := by
  obtain ⟨range, hrange, h⟩ := Option.bind_eq_some_iff.1 h
  obtain ⟨offset, _, h⟩ := Option.bind_eq_some_iff.1 h
  split at h
  · obtain rfl := Option.some.inj h
    exact hrange
  · simp at h

theorem read?_eq_some_iff {entry : MapsEntry} : line.read? = some entry ↔
    ∃ bare path, line.unnamed? = some bare ∧ MapsEntry.path? line.path = some path ∧
      entry = { bare with path := path } := by
  constructor
  · intro h
    obtain ⟨bare, hbare, h⟩ := Option.bind_eq_some_iff.1 h
    obtain ⟨path, hpath, h⟩ := Option.bind_eq_some_iff.1 h
    exact ⟨bare, path, hbare, hpath, (Option.some.inj h).symm⟩
  · rintro ⟨bare, path, hbare, hpath, rfl⟩
    simp [read?, hbare, hpath]

theorem fields_of_read? {entry : MapsEntry} (h : line.read? = some entry) :
    MapsEntry.range? line.address = some entry.range ∧
      MapsEntry.path? line.path = some entry.path := by
  obtain ⟨bare, path, hbare, hpath, rfl⟩ := read?_eq_some_iff.1 h
  have hrange := range?_of_unnamed? hbare
  exact ⟨hrange, hpath⟩

end MapsLine

namespace MapsEntry

variable {count : Nat} {first second text : List Char} {more : List (List Char)} {line : MapsLine}
  {entry : MapsEntry}

theorem fields_cons (h : ' ' ∉ first) (text : List Char) :
    fields (count + 2) (first ++ ' ' :: text) = first :: fields (count + 1) text := by
  have hspan : (first ++ ' ' :: text).span (fun c => c != ' ') = (first, ' ' :: text) := by
    rw [List.span_eq_takeWhile_dropWhile]
    have hfirst : ∀ c ∈ first, (c != ' ') = true := by
      intro c hc
      rw [bne_iff_ne]
      rintro rfl
      exact h hc
    rw [List.takeWhile_append_of_pos hfirst, List.dropWhile_append_of_pos hfirst]
    simp
  rw [fields, hspan]

/-- A piece that others follow ends at the first space. -/
theorem exists_of_fields (h : fields (count + 2) text = first :: second :: more) :
    ' ' ∉ first ∧ ∃ rest, text = first ++ ' ' :: rest ∧
      fields (count + 1) rest = second :: more := by
  have htext := List.takeWhile_append_dropWhile (p := fun c => c != ' ') (l := text)
  rw [fields, List.span_eq_takeWhile_dropWhile] at h
  cases hdrop : text.dropWhile fun c => c != ' ' with
  | nil => simp [hdrop] at h
  | cons c rest =>
    simp only [hdrop] at h
    obtain ⟨rfl, hrest⟩ := List.cons.inj h
    have hspace : c = ' ' := by
      have hhead := List.head?_dropWhile_not (fun c => c != ' ') text
      simpa [hdrop] using hhead
    refine ⟨fun hmem => ?_, rest, ?_, hrest⟩
    · simpa using List.mem_takeWhile_imp hmem
    · rw [hdrop, hspace] at htext
      exact htext.symm

theorem fields_text (h : line.Split) : fields 6 line.text =
    [line.address, line.letters, line.offset, line.device, line.inode, line.path] := by
  rw [MapsLine.text, fields_cons h.address, fields_cons h.letters, fields_cons h.offset,
    fields_cons h.device, fields_cons h.inode, fields]

theorem exists_line_of_fields {address letters offset device inode path : List Char}
    (h : fields 6 text = [address, letters, offset, device, inode, path]) :
    (MapsLine.mk address letters offset device inode path).Split ∧
      (MapsLine.mk address letters offset device inode path).text = text := by
  obtain ⟨haddress, _, rfl, h₁⟩ := exists_of_fields h
  obtain ⟨hletters, _, rfl, h₂⟩ := exists_of_fields h₁
  obtain ⟨hoffset, _, rfl, h₃⟩ := exists_of_fields h₂
  obtain ⟨hdevice, _, rfl, h₄⟩ := exists_of_fields h₃
  obtain ⟨hinode, _, rfl, h₅⟩ := exists_of_fields h₄
  obtain rfl : _ = path := (List.cons.inj h₅).1
  exact ⟨⟨haddress, hletters, hoffset, hdevice, hinode⟩, rfl⟩

/-- Whether a text starts with a capital letter, as the lines that tell more of a mapping do. -/
def isCapital (text : List Char) : Bool := text.head?.any fun c => 'A' ≤ c ∧ c ≤ 'Z'

/-- A line is cut into its fields, unless it starts with a capital letter. -/
theorem beforePath?_eq_some_iff {path : List Char} : beforePath? text = some (entry, path) ↔
    isCapital text = false ∧ ∃ line : MapsLine, line.Split ∧ line.text = text ∧
      line.unnamed? = some entry ∧ line.path = path := by
  cases text with
  | nil =>
    have hne : ∀ line : MapsLine, line.text ≠ [] := fun line =>
      List.append_ne_nil_of_right_ne_nil _ (List.cons_ne_nil _ _)
    simp [beforePath?, hne]
  | cons c rest =>
    have hcapital : isCapital (c :: rest) = decide ('A' ≤ c ∧ c ≤ 'Z') := rfl
    by_cases hc : 'A' ≤ c ∧ c ≤ 'Z'
    · simp [beforePath?, hcapital, hc]
    · rw [hcapital, decide_eq_false hc]
      simp only [beforePath?, if_neg hc]
      constructor
      · intro h
        split at h
        · next hpieces =>
          obtain ⟨hline, htext⟩ := exists_line_of_fields hpieces
          obtain ⟨bare, hbare, hpair⟩ := Option.map_eq_some_iff.1 h
          obtain ⟨rfl, rfl⟩ := Prod.mk.inj hpair
          exact ⟨trivial, _, hline, htext, hbare, rfl⟩
        · simp at h
      · rintro ⟨_, line, hline, htext, hbare, rfl⟩
        rw [← htext, fields_text hline]
        exact Option.map_eq_some_iff.2 ⟨entry, hbare, rfl⟩

theorem ofLine?_eq_some_iff : ofLine? text = some entry ↔
    isCapital text = false ∧
      ∃ line : MapsLine, line.Split ∧ line.text = text ∧ line.read? = some entry := by
  constructor
  · intro h
    obtain ⟨⟨bare, path⟩, hbefore, h⟩ := Option.bind_eq_some_iff.1 h
    obtain ⟨name, hname, hentry⟩ := Option.bind_eq_some_iff.1 h
    obtain ⟨hsmall, line, hsplit, htext, hbare, hpath⟩ := beforePath?_eq_some_iff.1 hbefore
    refine ⟨hsmall, line, hsplit, htext, MapsLine.read?_eq_some_iff.2 ⟨bare, name, hbare, ?_, ?_⟩⟩
    · rw [hpath, hname]
    · exact (Option.some.inj hentry).symm
  · rintro ⟨hsmall, line, hsplit, htext, hread⟩
    obtain ⟨bare, name, hbare, hname, rfl⟩ := MapsLine.read?_eq_some_iff.1 hread
    have hbefore := beforePath?_eq_some_iff.2 ⟨hsmall, line, hsplit, htext, hbare, rfl⟩
    simp [ofLine?, hbefore, hname]

theorem mem_of_range? {range : Interval} (h : range? text = some range) : '-' ∈ text := by
  by_contra hdash
  simp [range?, twoPieces?, List.splitOn_eq_singleton hdash] at h

/-- A line that has fields is not blank. -/
theorem trim_ne_nil_of_beforePath? {path : List Char}
    (h : beforePath? text = some (entry, path)) : Text.trim text ≠ [] := by
  obtain ⟨_, line, _, rfl, hentry, _⟩ := beforePath?_eq_some_iff.1 h
  have hdash : '-' ∈ line.text :=
    List.mem_append_left _ (mem_of_range? (MapsLine.range?_of_unnamed? hentry))
  intro hempty
  exact absurd (Text.trim_eq_nil_iff.1 hempty '-' hdash) (by decide)

theorem trim_ne_nil_of_ofLine? (h : ofLine? text = some entry) : Text.trim text ≠ [] := by
  obtain ⟨_, hbefore, _⟩ := Option.bind_eq_some_iff.1 h
  exact trim_ne_nil_of_beforePath? hbefore

theorem trim_ne_nil_of_halts (h : halts text = true) : Text.trim text ≠ [] := by
  obtain ⟨_, hbefore, _⟩ := (Option.any_eq_true _ _).1 h
  exact trim_ne_nil_of_beforePath? hbefore

/-- No blank line ends a program, so it does not matter that blank lines are left out. -/
theorem any_halts_filter (lines : List (List Char)) :
    (lines.filter fun line => !(Text.trim line).isEmpty).any halts = lines.any halts := by
  rw [List.any_filter]
  congr 1
  funext line
  cases hhalts : halts line with
  | false => exact Bool.and_false _
  | true => simp [trim_ne_nil_of_halts hhalts]

/-- A carriage return after the path is cut off with the blanks there. -/
theorem ofLine?_carriage (text : List Char) : ofLine? (text ++ ['\r']) = ofLine? text := by
  have hcapital : isCapital (text ++ ['\r']) = isCapital text := by
    cases text with
    | nil => rfl
    | cons c text => rfl
  ext entry
  rw [ofLine?_eq_some_iff, ofLine?_eq_some_iff, hcapital]
  refine and_congr_right fun _ => ?_
  constructor
  · rintro ⟨line, hsplit, htext, hentry⟩
    obtain ⟨line, rfl⟩ := line.exists_concat (by decide) htext
    rw [MapsLine.text_concat] at htext
    rw [MapsLine.read?_concat (by decide)] at hentry
    exact ⟨line, MapsLine.split_concat.1 hsplit, List.append_cancel_right htext, hentry⟩
  · rintro ⟨line, hsplit, rfl, hentry⟩
    refine ⟨line.concat '\r', MapsLine.split_concat.2 hsplit, line.text_concat '\r', ?_⟩
    rw [MapsLine.read?_concat (by decide), hentry]

/-- What a line adds to the list. -/
def added (line : List Char) : Option MapsEntry :=
  if (Text.trim line).isEmpty then none
  else (ofLine? line).filter fun entry => entry.range.start ≤ entry.range.stop

theorem added_carriage (line : List Char) : added (line ++ ['\r']) = added line := by
  rw [added, added, Text.trim_concat (by decide), ofLine?_carriage]

theorem ofText_eq (text : String) : ofText text = (Text.lines text.toList).filterMap added := by
  rw [ofText, List.filter_filterMap, List.filterMap_filter]
  refine List.filterMap_congr fun line _ => ?_
  rw [added]
  cases (Text.trim line).isEmpty <;> rfl

/-- A line that shows an entry: its numbers in base 16, its letters, and anything that can be read
as a device, as the number of a file and as a path. -/
structure LineShows (line : MapsLine) (entry : MapsEntry) : Prop where
  split : line.Split
  small : isCapital line.address = false
  range : ∃ start stop, line.address = start ++ '-' :: stop ∧
    Hex.Spells start entry.range.start.toNat ∧ Hex.Spells stop entry.range.stop.toNat
  read : entry.permissions.read = true ↔ 'r' ∈ line.letters
  write : entry.permissions.write = true ↔ 'w' ∈ line.letters
  execute : entry.permissions.execute = true ↔ 'x' ∈ line.letters
  isPrivate : entry.isPrivate = true ↔ 'p' ∈ line.letters
  offset : Hex.Spells line.offset entry.offset
  bound : entry.offset < UInt64.size
  device : isDevice line.device = true
  inode : (Numeral.unsigned? 10 UInt64.size line.inode).isSome = true
  path : path? line.path = some entry.path

theorem twoPieces?_append {separator : Char} (hfirst : separator ∉ first)
    (hsecond : separator ∉ second) :
    twoPieces? separator (first ++ separator :: second) = some (first, second) := by
  rw [twoPieces?, List.splitOn_append_cons_self_of_not_mem hfirst,
    List.splitOn_eq_singleton hsecond]

theorem range?_eq {range : Interval} (hstart : Hex.Spells first range.start.toNat)
    (hstop : Hex.Spells second range.stop.toNat) :
    range? (first ++ '-' :: second) = some range := by
  have hdash : ∀ {text n}, Hex.Spells text n → '-' ∉ text := fun h =>
    h.not_mem (by decide) (by decide)
  have hpieces := twoPieces?_append (hdash hstart) (hdash hstop)
  have hfirst : word? first = some range.start.toNat := hstart.unsigned?_eq range.start.toNat_lt
  have hsecond : word? second = some range.stop.toNat := hstop.unsigned?_eq range.stop.toNat_lt
  have hinv : ∀ a : Address, Address.ofNat a.toNat = a := fun a =>
    congrArg Address.mk UInt64.ofNat_toNat
  simp [range?, hpieces, hfirst, hsecond, hinv]

theorem LineShows.ofLine?_eq (h : LineShows line entry) : ofLine? line.text = some entry := by
  obtain ⟨start, stop, haddress, hstart, hstop⟩ := h.range
  have hsmall : isCapital line.text = false := by
    simpa [isCapital, MapsLine.text, haddress] using h.small
  refine ofLine?_eq_some_iff.2 ⟨hsmall, line, h.split, rfl, ?_⟩
  have hrange : range? line.address = some entry.range := haddress ▸ range?_eq hstart hstop
  have hoffset : word? line.offset = some entry.offset := h.offset.unsigned?_eq h.bound
  have hletter : ∀ {b : Bool} {c : Char}, (b = true ↔ c ∈ line.letters) →
      line.letters.contains c = b := by
    intro b c hb
    rw [Bool.eq_iff_iff, List.contains_iff_mem, hb]
  simp only [MapsLine.read?, MapsLine.unnamed?, unnamed?, hrange, hoffset, h.path, hletter h.read,
    hletter h.write, hletter h.execute, hletter h.isPrivate, h.device, h.inode]
  rfl

/-- What a line adds to the list. -/
inductive LineAdds : List Char → Option MapsEntry → Prop
  | mapping {line : MapsLine} {entry : MapsEntry} (h : LineShows line entry)
      (horder : entry.range.start ≤ entry.range.stop) : LineAdds line.text (some entry)
  | reversed {line : MapsLine} {entry : MapsEntry} (h : LineShows line entry)
      (horder : entry.range.stop < entry.range.start) : LineAdds line.text none
  | blank {text : List Char} (h : ∀ c ∈ text, Text.isBlank c = true) : LineAdds text none
  | rejected {text : List Char} (h : ofLine? text = none) : LineAdds text none

theorem added_of_ofLine? (h : ofLine? text = some entry) : added text =
    if entry.range.start ≤ entry.range.stop then some entry else none := by
  simp only [added, List.isEmpty_iff, trim_ne_nil_of_ofLine? h, h, Option.filter_some,
    decide_eq_true_eq, if_false]

theorem LineAdds.added_eq {found : Option MapsEntry} (h : LineAdds text found) :
    added text = found := by
  cases h with
  | mapping h horder => rw [added_of_ofLine? h.ofLine?_eq, if_pos horder]
  | @reversed _ entry h horder =>
    have hnot : ¬ entry.range.start ≤ entry.range.stop := Nat.not_le_of_lt horder
    rw [added_of_ofLine? h.ofLine?_eq, if_neg hnot]
  | blank h => simp [added, Text.trim_eq_nil_iff.2 h]
  | rejected h => simp [added, h]

theorem filterMap_added {lines : List (List Char)} {found : List (Option MapsEntry)}
    (h : List.Forall₂ LineAdds lines found) : lines.filterMap added = found.reduceOption := by
  induction h with
  | nil => rfl
  | @cons _ entry _ _ h _ ih =>
    rw [List.filterMap_cons, h.added_eq, ih]
    cases entry <;> rfl

/-- Each line is read by itself: one that shows a mapping adds it, and any other one adds nothing,
whatever the lines around it are. -/
theorem ofText_exact {lines : List (List Char)} {found : List (Option MapsEntry)}
    (h : List.Forall₂ LineAdds lines found) (hjoins : Text.Joins lines text)
    (hlines : ∀ line ∈ lines, '\n' ∉ line) : ofText (String.ofList text) = found.reduceOption := by
  rw [ofText_eq, String.toList_ofList, Text.filterMap_lines added_carriage rfl hjoins hlines,
    filterMap_added h]

def codeLine : MapsLine where
  address := "1000-2000".toList
  letters := "r-xp".toList
  offset := "00000000".toList
  device := "b3:04".toList
  inode := "227".toList
  path := "       /bin/sh".toList

def heapLine : MapsLine where
  address := "ffffffffffff0000-fffffffffffff000".toList
  letters := "rw-s".toList
  offset := "0000001a".toList
  device := "00:00".toList
  inode := "0".toList
  path := "[heap]".toList

def reversedLine : MapsLine := { codeLine with address := "2000-1000".toList }

def codeEntry : MapsEntry :=
  ⟨⟨⟨0x1000⟩, ⟨0x2000⟩⟩, ⟨true, false, true⟩, true, 0, some "/bin/sh"⟩

def heapEntry : MapsEntry :=
  ⟨⟨⟨0xffffffffffff0000⟩, ⟨0xfffffffffffff000⟩⟩, ⟨true, true, false⟩, false, 0x1a, some "[heap]"⟩

theorem ofText_exact_mixed :
    let lines := [codeLine.text, reversedLine.text, "not a line".toList, "Rss: 4 kB".toList,
      "  ".toList, heapLine.text]
    let found := [some codeEntry, none, none, none, none, some heapEntry]
    let text := codeLine.text ++ '\r' :: '\n' :: (reversedLine.text ++ '\n' ::
      ("not a line".toList ++ '\n' :: ("Rss: 4 kB".toList ++ '\n' :: ("  ".toList ++ '\r' :: '\n' ::
        heapLine.text))))
    List.Forall₂ LineAdds lines found ∧ Text.Joins lines text ∧ (∀ line ∈ lines, '\n' ∉ line) ∧
      ofText (String.ofList text) = [codeEntry, heapEntry] := by
  intro lines found text
  have hcode : LineShows codeLine codeEntry := by
    have hsplit : codeLine.Split := by constructor <;> decide
    refine ⟨hsplit, ?_, ⟨"1000".toList, "2000".toList, rfl, ⟨0, ?_⟩, ⟨0, ?_⟩⟩, ?_, ?_, ?_, ?_,
      ⟨7, ?_⟩, ?_, ?_, ?_, ?_⟩ <;> decide
  have hreversed : LineShows reversedLine { codeEntry with range := ⟨⟨0x2000⟩, ⟨0x1000⟩⟩ } := by
    have hsplit : reversedLine.Split := by constructor <;> decide
    refine ⟨hsplit, ?_, ⟨"2000".toList, "1000".toList, rfl, ⟨0, ?_⟩, ⟨0, ?_⟩⟩, ?_, ?_, ?_, ?_,
      ⟨7, ?_⟩, ?_, ?_, ?_, ?_⟩ <;> decide
  have hheap : LineShows heapLine heapEntry := by
    have hsplit : heapLine.Split := by constructor <;> decide
    refine ⟨hsplit, ?_, ⟨"ffffffffffff0000".toList, "fffffffffffff000".toList, rfl, ⟨0, ?_⟩,
      ⟨0, ?_⟩⟩, ?_, ?_, ?_, ?_, ⟨6, ?_⟩, ?_, ?_, ?_, ?_⟩ <;> decide
  have hadds : List.Forall₂ LineAdds lines found :=
    have hblank : LineAdds "  ".toList none := .blank (by simp [Text.isBlank])
    .cons (.mapping hcode (by decide)) (.cons (.reversed hreversed (by decide))
      (.cons (.rejected (by decide)) (.cons (.rejected (by decide)) (.cons hblank
        (.cons (.mapping hheap (by decide)) .nil)))))
  have hjoins : Text.Joins lines text :=
    .carriage _ (.feed _ (.feed _ (.feed _ (.carriage _ (.last _)))))
  have hlines : ∀ line ∈ lines, '\n' ∉ line := by decide
  exact ⟨hadds, hjoins, hlines, ofText_exact hadds hjoins hlines⟩

end MapsEntry
end CrashDump

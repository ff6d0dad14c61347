import CrashDump.Text.Blank
import Mathlib

/-!
# Lines of a text

A text that is made of lines is read as those lines, whatever their ends are. A carriage return that
a line has at its end is lost before a line feed, which is no matter where blanks around it are cut
off.
-/
namespace CrashDump.Text

variable {α : Type} {line text : List Char} {lines : List (List Char)} {c : Char}

/-- A text made of lines. Each is ended by a line feed, before which a carriage return may stand;
the last one may go without an end. -/
inductive Joins : List (List Char) → List Char → Prop
  | nil : Joins [] []
  | last (line : List Char) : Joins [line] line
  | feed {lines : List (List Char)} {text : List Char} (line : List Char)
      (rest : Joins lines text) : Joins (line :: lines) (line ++ '\n' :: text)
  | carriage {lines : List (List Char)} {text : List Char} (line : List Char)
      (rest : Joins lines text) : Joins (line :: lines) (line ++ '\r' :: '\n' :: text)

theorem dropCarriage_concat (line : List Char) : dropCarriage (line ++ ['\r']) = line := by
  simp [dropCarriage]

theorem dropCarriage_cases (line : List Char) :
    dropCarriage line = line ∨ line = dropCarriage line ++ ['\r'] := by
  unfold dropCarriage
  split
  · next hlast =>
    obtain ⟨front, rfl⟩ := List.getLast?_eq_some_iff.1 hlast
    simp
  · exact .inl rfl

/-- What does not depend on a carriage return at the end does not depend on its loss. -/
theorem apply_dropCarriage {f : List Char → α} (hf : ∀ line, f (line ++ ['\r']) = f line)
    (line : List Char) : f (dropCarriage line) = f line := by
  rcases dropCarriage_cases line with h | h
  · rw [h]
  · conv => rhs; rw [h]
    exact (hf _).symm

theorem lines_feed (h : '\n' ∉ line) (text : List Char) :
    Text.lines (line ++ '\n' :: text) = dropCarriage line :: Text.lines text := by
  obtain ⟨next, rest, hrest⟩ := List.exists_cons_of_ne_nil (List.splitOn_ne_nil '\n' text)
  rw [Text.lines, Text.lines, List.splitOn_append_cons_self_of_not_mem h, hrest, endLines]
  exact List.cons_ne_nil next rest

theorem lines_carriage (h : '\n' ∉ line) (text : List Char) :
    Text.lines (line ++ '\r' :: '\n' :: text) = line :: Text.lines text := by
  have hline : '\n' ∉ line ++ ['\r'] := by simpa using h
  have hfeed := lines_feed hline text
  rwa [List.append_assoc, dropCarriage_concat] at hfeed

theorem lines_last (h : '\n' ∉ line) : Text.lines line = if line.isEmpty then [] else [line] := by
  rw [Text.lines, List.splitOn_eq_singleton h, endLines]

/-- What is found in the lines of a text is what is found in the lines it was made of, if a carriage
return at the end of a line is of no account. -/
theorem filterMap_lines {f : List Char → Option α} (hf : ∀ line, f (line ++ ['\r']) = f line)
    (hnil : f [] = none) (h : Joins lines text) (hlines : ∀ line ∈ lines, '\n' ∉ line) :
    (Text.lines text).filterMap f = lines.filterMap f := by
  induction h with
  | nil => rfl
  | last line =>
    rw [lines_last (hlines line List.mem_cons_self)]
    split
    · next hempty => rw [List.isEmpty_iff.1 hempty]; simp [hnil]
    · rfl
  | feed line rest ih =>
    obtain ⟨hline, hlines⟩ := List.forall_mem_cons.1 hlines
    rw [lines_feed hline, List.filterMap_cons, List.filterMap_cons, apply_dropCarriage hf,
      ih hlines]
  | carriage line rest ih =>
    obtain ⟨hline, hlines⟩ := List.forall_mem_cons.1 hlines
    rw [lines_carriage hline, List.filterMap_cons, List.filterMap_cons, ih hlines]

theorem trim_concat (hc : isBlank c = true) (text : List Char) :
    trim (text ++ [c]) = trim text := by
  have hend : ∀ text, dropEndWhile isBlank (text ++ [c]) = dropEndWhile isBlank text := by
    intro text
    simp [dropEndWhile, hc]
  rw [trim, trim, List.dropWhile_append]
  split
  · next hempty => simp [List.isEmpty_iff.1 hempty, hc]
  · exact hend _

theorem trim_eq_nil_iff : trim text = [] ↔ ∀ c ∈ text, isBlank c = true := by
  change (text.dropWhile isBlank).rdropWhile isBlank = [] ↔ _
  rw [List.rdropWhile_eq_nil_iff]
  constructor
  · intro h c hc
    rw [← List.takeWhile_append_dropWhile (p := isBlank) (l := text)] at hc
    rcases List.mem_append.1 hc with hc | hc
    · exact List.mem_takeWhile_imp hc
    · exact h c hc
  · exact fun h c hc => h c (List.dropWhile_subset _ hc)

end CrashDump.Text

import CrashDump.FileTree
import Mathlib

/-!
# Names inside directories

A name without a slash is one part of a path, so joined to a directory it leads no further than to
an entry of that directory. In a tree of files it leads to a file exactly if the directory is there
and has a file of that name.
-/
namespace CrashDump

namespace FilePath

variable {name : String}

/-- Whether a part of a path leads one step down. -/
def LeadsDown (part : String) : Prop := part ≠ "" ∧ part ≠ "." ∧ part ≠ ".."

theorem parts_of_no_slash (h : '/' ∉ name.toList) : parts name = [name] := by
  rw [parts, List.splitOn_eq_singleton h, List.map_singleton, String.ofList_toList]

theorem parts_slash (front back : String) :
    parts (front ++ "/" ++ back) = parts front ++ parts back := by
  have htext : (front ++ "/" ++ back).toList = front.toList ++ '/' :: back.toList := by simp
  have hsplit : (front.toList ++ '/' :: back.toList).splitOn '/' =
      front.toList.splitOn '/' ++ back.toList.splitOn '/' :=
    List.splitOnP_append_cons _ _ (beq_self_eq_true '/')
  rw [parts, htext, hsplit, List.map_append]
  rfl

theorem isAbsolute_of_no_slash (h : '/' ∉ name.toList) : isAbsolute name = false := by
  rw [isAbsolute, beq_eq_false_iff_ne]
  exact fun hhead => h (List.mem_of_mem_head? hhead)

/-- A name goes behind a directory with one slash between them. -/
theorem join_cases (h : '/' ∉ name.toList) (directory : String) :
    (directory = "" ∧ join directory name = name) ∨
      (∃ front, directory = front ++ "/" ∧ join directory name = front ++ "/" ++ name) ∨
      directory ≠ "" ∧ join directory name = directory ++ "/" ++ name := by
  have hname := isAbsolute_of_no_slash h
  by_cases hempty : directory = ""
  · exact .inl ⟨hempty, by simp [join, hempty]⟩
  · by_cases hlast : directory.toList.getLast? = some '/'
    · obtain ⟨front, hfront⟩ := List.getLast?_eq_some_iff.1 hlast
      have hdirectory : directory = String.ofList front ++ "/" := by
        rw [← String.toList_inj, hfront]
        simp
      refine .inr (.inl ⟨String.ofList front, hdirectory, ?_⟩)
      rw [← hdirectory]
      simp [join, hname, hempty, hlast]
    · exact .inr (.inr ⟨hempty, by simp [join, hname, hempty, hlast]⟩)

/-- A name is the last part of the path it is joined to. Nothing but the empty part after a slash at
the end of that path gets lost. -/
theorem exists_parts_join (h : '/' ∉ name.toList) (directory : String) :
    ∃ front, parts (join directory name) = front ++ [name] ∧
      (parts directory = front ∨ parts directory = front ++ [""]) := by
  have hname := parts_of_no_slash h
  have hnone : parts "" = [""] := by decide
  rcases join_cases h directory with ⟨rfl, hjoin⟩ | ⟨front, rfl, hjoin⟩ | ⟨_, hjoin⟩
  · exact ⟨[], by rw [hjoin, hname, List.nil_append], .inr hnone⟩
  · refine ⟨parts front, by rw [hjoin, parts_slash, hname], .inr ?_⟩
    have hend := parts_slash front ""
    rwa [String.append_empty, hnone] at hend
  · exact ⟨parts directory, by rw [hjoin, parts_slash, hname], .inl rfl⟩

theorem isAbsolute_append {front : String} (h : front ≠ "") (back : String) :
    isAbsolute (front ++ back) = isAbsolute front := by
  obtain ⟨c, rest, hfront⟩ := List.exists_cons_of_ne_nil (mt String.toList_eq_nil_iff.1 h)
  rw [isAbsolute, isAbsolute, String.toList_append, hfront]
  rfl

theorem isAbsolute_join (h : '/' ∉ name.toList) (directory : String) :
    isAbsolute (join directory name) = isAbsolute directory := by
  rcases join_cases h directory with ⟨rfl, hjoin⟩ | ⟨front, rfl, hjoin⟩ | ⟨hne, hjoin⟩
  · rw [hjoin, isAbsolute_of_no_slash h]
    rfl
  · rw [hjoin, isAbsolute_append]
    intro hempty
    simpa using congrArg String.toList hempty
  · rw [hjoin, String.append_assoc, isAbsolute_append hne]

/-- What a name joined to a directory names is the directory and then the name. -/
theorem named_join (h : '/' ∉ name.toList) (directory : String) :
    named (join directory name) = named directory ++ named name := by
  obtain ⟨front, hjoin, hdirectory⟩ := exists_parts_join h directory
  rw [named, named, named, hjoin, parts_of_no_slash h, List.filter_append]
  rcases hdirectory with hdirectory | hdirectory
  · rw [hdirectory]
  · simp [hdirectory]

end FilePath

namespace FileTree

open FilePath

variable {tree : FileTree} {place final front : List String} {part name : String} {data : Buffer}

/-- Where the parts of a path lead from a directory, if all of them are taken in directories. -/
inductive Leads (tree : FileTree) : List String → List String → List String → Prop
  | here {place : List String} (h : tree.node? place = some .directory) : Leads tree place [] place
  | stay {place final rest : List String} {part : String} (h : tree.node? place = some .directory)
      (hpart : part = "" ∨ part = ".") (hrest : Leads tree place rest final) :
      Leads tree place (part :: rest) final
  | up {place final rest : List String} {part : String} (h : tree.node? place = some .directory)
      (hpart : part = "..") (hrest : Leads tree place.dropLast rest final) :
      Leads tree place (part :: rest) final
  | down {place final rest : List String} {part : String} (h : tree.node? place = some .directory)
      (hpart : LeadsDown part) (hrest : Leads tree (place ++ [part]) rest final) :
      Leads tree place (part :: rest) final

/-- Whether all directories above a place are directories. A path that is followed leads to no other
place. -/
def Rooted (tree : FileTree) (place : List String) : Prop :=
  ∀ above, above <+: place → above ≠ place → tree.node? above = some .directory

theorem rooted_nil : tree.Rooted [] := fun _ hfront hne => absurd (List.prefix_nil.1 hfront) hne

theorem Rooted.dropLast (h : tree.Rooted place) : tree.Rooted place.dropLast := by
  intro above hfront hne
  refine h above (hfront.trans (List.dropLast_prefix place)) ?_
  rintro rfl
  exact hne (hfront.eq_of_length_le (by simp))

theorem Rooted.concat (h : tree.Rooted place) (hplace : tree.node? place = some .directory)
    (part : String) : tree.Rooted (place ++ [part]) := by
  intro above hfront hne
  rcases List.prefix_concat_iff.1 hfront with rfl | hfront
  · exact absurd rfl hne
  · by_cases hsame : above = place
    · exact hsame ▸ hplace
    · exact h above hfront hsame

theorem Rooted.node?_dropLast (h : tree.Rooted place)
    (hplace : tree.node? place = some .directory) :
    tree.node? place.dropLast = some .directory := by
  by_cases hsame : place.dropLast = place
  · rw [hsame, hplace]
  · exact h _ (List.dropLast_prefix place) hsame

theorem follow_nil_of_directory (h : tree.node? place = some .directory) :
    tree.follow place [] = .ok .directory := by
  rw [follow, h]

theorem follow_cons (h : tree.node? place = some .directory) (part : String)
    (rest : List String) : tree.follow place (part :: rest) =
      if part = "" ∨ part = "." then tree.follow place rest
      else if part = ".." then tree.follow place.dropLast rest
      else tree.follow (place ++ [part]) rest := by
  rw [follow, h]

theorem node?_of_follow_cons {rest : List String} {node : Node}
    (h : tree.follow place (part :: rest) = .ok node) : tree.node? place = some .directory := by
  rw [follow] at h
  split at h
  · simp at h
  · simp at h
  · assumption

/-- A last part leads to a file exactly if it is the name of one. -/
theorem follow_singleton_iff (hrooted : tree.Rooted place) :
    tree.follow place [name] = .ok (.file data) ↔ tree.node? place = some .directory ∧
      LeadsDown name ∧ tree.node? (place ++ [name]) = some (.file data) := by
  constructor
  · intro h
    have hplace := node?_of_follow_cons h
    rw [follow_cons hplace] at h
    split at h
    · simp [follow_nil_of_directory hplace] at h
    · next hdown =>
      split at h
      · simp [follow_nil_of_directory (hrooted.node?_dropLast hplace)] at h
      · next hup =>
        rw [follow] at h
        split at h
        · next node hnode =>
          rw [hnode, Except.ok.inj h]
          exact ⟨hplace, ⟨fun h => hdown (.inl h), fun h => hdown (.inr h), hup⟩, rfl⟩
        · simp at h
  · rintro ⟨hplace, ⟨hempty, hdot, hup⟩, hnode⟩
    rw [follow_cons hplace, if_neg (by simp [hempty, hdot]), if_neg hup, follow, hnode]

/-- A path leads to a file exactly if its parts but the last lead to a directory that has a file of
the name that is the last one. -/
theorem follow_concat_iff (hrooted : tree.Rooted place) :
    tree.follow place (front ++ [name]) = .ok (.file data) ↔ LeadsDown name ∧
      ∃ final, tree.Leads place front final ∧
        tree.node? (final ++ [name]) = some (.file data) := by
  induction front generalizing place with
  | nil =>
    rw [List.nil_append, follow_singleton_iff hrooted]
    constructor
    · rintro ⟨hplace, hname, hnode⟩
      exact ⟨hname, place, .here hplace, hnode⟩
    · rintro ⟨hname, final, hleads, hnode⟩
      cases hleads with
      | here hplace => exact ⟨hplace, hname, hnode⟩
  | cons part rest ih =>
    rw [List.cons_append]
    constructor
    · intro h
      have hplace := node?_of_follow_cons h
      rw [follow_cons hplace] at h
      split at h
      · next hstay =>
        obtain ⟨hname, final, hleads, hnode⟩ := (ih hrooted).1 h
        exact ⟨hname, final, .stay hplace hstay hleads, hnode⟩
      · next hdown =>
        split at h
        · next hup =>
          obtain ⟨hname, final, hleads, hnode⟩ := (ih hrooted.dropLast).1 h
          exact ⟨hname, final, .up hplace hup hleads, hnode⟩
        · next hup =>
          obtain ⟨hname, final, hleads, hnode⟩ := (ih (hrooted.concat hplace part)).1 h
          have hpart : LeadsDown part := ⟨fun h => hdown (.inl h), fun h => hdown (.inr h), hup⟩
          exact ⟨hname, final, .down hplace hpart hleads, hnode⟩
    · rintro ⟨hname, final, hleads, hnode⟩
      cases hleads with
      | stay hplace hstay hleads =>
        rw [follow_cons hplace, if_pos hstay]
        exact (ih hrooted).2 ⟨hname, final, hleads, hnode⟩
      | up hplace hup hleads =>
        subst hup
        rw [follow_cons hplace, if_neg (by decide), if_pos rfl]
        exact (ih hrooted.dropLast).2 ⟨hname, final, hleads, hnode⟩
      | down hplace hpart hleads =>
        obtain ⟨hempty, hdot, hup⟩ := hpart
        rw [follow_cons hplace, if_neg (by simp [hempty, hdot]), if_neg hup]
        exact (ih (hrooted.concat hplace part)).2 ⟨hname, final, hleads, hnode⟩

/-- A slash at the end of a path leads nowhere else. -/
theorem leads_concat_empty :
    tree.Leads place (front ++ [""]) final ↔ tree.Leads place front final := by
  constructor
  · intro h
    induction front generalizing place with
    | nil =>
      cases h with
      | stay _ _ h => exact h
      | up _ hpart _ => exact absurd hpart (by decide)
      | down _ hpart _ => exact absurd rfl hpart.1
    | cons part rest ih =>
      cases h with
      | stay hplace hpart h => exact .stay hplace hpart (ih h)
      | up hplace hpart h => exact .up hplace hpart (ih h)
      | down hplace hpart h => exact .down hplace hpart (ih h)
  · intro h
    induction h with
    | here h => exact .stay h (.inl rfl) (.here h)
    | stay hplace hpart _ ih => exact .stay hplace hpart ih
    | up hplace hpart _ ih => exact .up hplace hpart ih
    | down hplace hpart _ ih => exact .down hplace hpart ih

theorem read_eq_ok_iff {path : String} :
    tree.disk.read path = .ok data ↔ tree.find path = .ok (.file data) := by
  simp only [disk]
  rcases tree.find path with fault | data' | _
  · simp
  · simp
  · simp

theorem isFile_iff {path : String} :
    tree.disk.isFile path = true ↔ ∃ data, tree.disk.read path = .ok data := by
  simp only [disk, holdsFile]
  rcases tree.find path with fault | data | _
  · simp
  · simp
  · simp

/-- The file at a name inside a directory is the entry of that name of the directory. -/
theorem read_join_iff (h : '/' ∉ name.toList) (directory : String) :
    tree.disk.read (join directory name) = .ok data ↔ isAbsolute directory = false ∧
      LeadsDown name ∧ ∃ place, tree.Leads [] (parts directory) place ∧
        tree.node? (place ++ [name]) = some (.file data) := by
  obtain ⟨front, hjoin, hdirectory⟩ := exists_parts_join h directory
  have hleads : ∀ place, tree.Leads [] (parts directory) place ↔ tree.Leads [] front place := by
    intro place
    rcases hdirectory with hdirectory | hdirectory
    · rw [hdirectory]
    · rw [hdirectory, leads_concat_empty]
  simp only [read_eq_ok_iff, hleads]
  rw [find, isAbsolute_join h, hjoin]
  split
  · next hempty =>
    have hname : name = "" := by
      have hlast := congrArg List.getLast? hjoin
      rw [hempty, List.getLast?_concat] at hlast
      exact (Option.some.inj hlast).symm
    simp [hname, LeadsDown]
  · split
    · next habsolute =>
      simp only [habsolute, Bool.true_eq_false, false_and, iff_false]
      split
      · simp
      · simp
    · next hrelative =>
      rw [follow_concat_iff rooted_nil]
      simp [hrelative]

end FileTree
end CrashDump

import CrashDump.Module.Listing
import CrashDump.Proofs.FilePlaces
import CrashDump.Proofs.Outcome

/-!
# Searching for images

The directories are looked through in order for a file with the name of the module. The first such
file that can be understood and is of the right build gives the image, and each one before it is
reported with what is wrong with it. Nothing but these files is opened, and since a name has no
slashes each of them stands in one of the directories.
-/
namespace CrashDump

/-- Whether two identifiers name one build. A difference in length is made up for by sixteen bytes
that agree. -/
def Identity.SameIdentifier (expected found : List UInt8) : Prop :=
  expected = found ∨ expected.length ≠ found.length ∧ 16 ≤ expected.length ∧ 16 ≤ found.length ∧
    expected.take 16 = found.take 16

theorem Identity.agree_iff {expected found : List UInt8} :
    agree expected found = true ↔ SameIdentifier expected found := by
  unfold agree SameIdentifier
  split
  · next hlength => simp [hlength]
  · next hlength =>
    have hne : expected ≠ found := fun h => hlength (congrArg List.length h)
    simp [hlength, hne, and_assoc]

namespace Module

variable (path : String)

theorem nameOf_toList :
    (nameOf path).toList = path.toList.rtakeWhile fun c => c ≠ '/' ∧ c ≠ '\\' := by
  rw [nameOf, String.toList_ofList, List.rtakeWhile]

/-- The name of a module has no separators of any system. -/
theorem no_separator_nameOf : '/' ∉ (nameOf path).toList ∧ '\\' ∉ (nameOf path).toList := by
  rw [nameOf_toList]
  refine ⟨fun h => ?_, fun h => ?_⟩
  · simpa using List.mem_rtakeWhile_imp h
  · simpa using List.mem_rtakeWhile_imp h

/-- The name of a module is all that follows the last separator of its path. -/
theorem exists_eq_append_nameOf : ∃ front, path = front ++ nameOf path ∧
    (front = "" ∨ front.toList.getLast? = some '/' ∨ front.toList.getLast? = some '\\') := by
  refine ⟨String.ofList (path.toList.rdropWhile fun c => c ≠ '/' ∧ c ≠ '\\'), ?_, ?_⟩
  · rw [← String.toList_inj, String.toList_append, String.toList_ofList, nameOf_toList,
      List.rdropWhile_append_rtakeWhile]
  · rw [String.toList_ofList]
    by_cases hnil : (path.toList.rdropWhile fun c => c ≠ '/' ∧ c ≠ '\\') = []
    · exact .inl (by rw [hnil])
    · have hlast := List.rdropWhile_last_not _ _ hnil
      rw [List.getLast?_eq_some_getLast hnil]
      right
      simpa [Classical.or_iff_not_imp_left] using hlast

end Module

namespace Image

/-- Whether a file with an identifier, or with none, may stand for a module. -/
def MayStandFor (expected found : Option (List UInt8)) : Prop :=
  ∀ wanted ∈ expected, ∃ identifier ∈ found, Identity.SameIdentifier wanted identifier

theorem accepts_iff {expected found : Option (List UInt8)} :
    accepts expected found = true ↔ MayStandFor expected found := by
  rcases expected with _ | expected
  · simp [accepts, MayStandFor]
  · rcases found with _ | found
    · simp [accepts, MayStandFor]
    · simp [accepts, MayStandFor, Identity.agree_iff]

section Search

variable (reader : Buffer → Except ObjectFault ObjectFile) (disk : Disk) (name : String)
  (expected : Option (List UInt8)) (base : Address) (size : UInt64)

/-- The file at a path can be understood, and it is one that may stand for the module. -/
inductive TakesFile (path : String) : Image → Prop
  | image {data : Buffer} {file : ObjectFile} (hdata : disk.read path = .ok data)
      (hfile : reader data = .ok file) (hfits : MayStandFor expected file.identifier) :
      TakesFile path ⟨path, file.identifier, codeRanges file base size⟩

/-- What is reported of a file that is not taken. -/
inductive Refuses (path : String) : Diagnostic → Prop
  | unread {fault : FileFault} (hdata : disk.read path = .error fault) :
      Refuses path (.imageUnreadable path (SnapshotFault.unreadable fault).message)
  | unparsed {data : Buffer} {fault : ObjectFault} (hdata : disk.read path = .ok data)
      (hfile : reader data = .error fault) :
      Refuses path
        (.imageUnreadable path (SnapshotFault.badArgument (.image path fault)).message)
  | mismatch {data : Buffer} {file : ObjectFile} (hdata : disk.read path = .ok data)
      (hfile : reader data = .ok file) (hfits : ¬MayStandFor expected file.identifier) :
      Refuses path (.imageMismatch name path)

/-- One report, in order, on each file of the name that is in one of the directories. -/
def Passes (directories : List String) (reports : List Diagnostic) : Prop :=
  List.Forall₂ (Refuses reader disk name expected)
    ((directories.map fun directory => FilePath.join directory name).filter disk.isFile) reports

/-- What the search through directories comes to. -/
inductive SearchEnds : List String → Option Image × List Diagnostic → Prop
  | nowhere {directories : List String} {reports : List Diagnostic}
      (hpasses : Passes reader disk name expected directories reports) :
      SearchEnds directories (none, reports)
  | taken {before after : List String} {directory : String} {image : Image}
      {reports : List Diagnostic} (hpasses : Passes reader disk name expected before reports)
      (hthere : disk.isFile (FilePath.join directory name) = true)
      (htakes : TakesFile reader disk expected base size (FilePath.join directory name) image) :
      SearchEnds (before ++ directory :: after) (some image, reports)

end Search

variable {reader : Buffer → Except ObjectFault ObjectFile} {disk other : Disk} {name path : String}
  {expected : Option (List UInt8)} {base : Address} {size : UInt64} {image : Image}
  {report : Diagnostic} {reports : List Diagnostic} {directories before after : List String}
  {result : Option Image × List Diagnostic}

theorem parseWith_eq_ok_iff : parseWith reader disk path base size = .ok image ↔
    ∃ data file, disk.read path = .ok data ∧ reader data = .ok file ∧
      image = ⟨path, file.identifier, codeRanges file base size⟩ := by
  unfold parseWith
  cases disk.read path with
  | error fault => simp
  | ok data =>
    cases hfile : reader data with
    | error fault => simp [hfile]
    | ok file => simp [hfile, eq_comm]

theorem ofFileWith_eq_ok_iff : ofFileWith reader disk name expected base size path = .ok image ↔
    TakesFile reader disk expected base size path image := by
  unfold ofFileWith
  constructor
  · intro h
    split at h
    · simp at h
    · next found hfound =>
      obtain ⟨data, file, hdata, hfile, rfl⟩ := parseWith_eq_ok_iff.1 hfound
      split at h
      · next hfits =>
        obtain rfl := Except.ok.inj h
        exact .image hdata hfile (accepts_iff.1 hfits)
      · simp at h
  · rintro ⟨hdata, hfile, hfits⟩
    simp only [parseWith_eq_ok_iff.2 ⟨_, _, hdata, hfile, rfl⟩]
    exact if_pos (accepts_iff.2 hfits)

theorem refuses_of_ofFileWith
    (h : ofFileWith reader disk name expected base size path = .error report) :
    Refuses reader disk name expected path report := by
  unfold ofFileWith parseWith at h
  cases hdata : disk.read path with
  | error fault =>
    obtain rfl : _ = report := by simpa [hdata] using h
    exact .unread hdata
  | ok data =>
    cases hfile : reader data with
    | error fault =>
      obtain rfl : _ = report := by simpa [hdata, hfile] using h
      exact .unparsed hdata hfile
    | ok file =>
      simp only [hdata, hfile] at h
      split at h
      · simp at h
      · next hfits =>
        obtain rfl := Except.error.inj h
        exact .mismatch hdata hfile fun hfit => hfits (accepts_iff.2 hfit)

theorem Refuses.ofFileWith_eq (h : Refuses reader disk name expected path report) :
    ofFileWith reader disk name expected base size path = .error report := by
  unfold ofFileWith parseWith
  cases h with
  | unread hdata => simp [hdata]
  | unparsed hdata hfile => simp [hdata, hfile]
  | mismatch hdata hfile hfits =>
    simp [hdata, hfile, mt accepts_iff.1 hfits]

/-- No file is both taken and refused. -/
theorem TakesFile.not_refuses (h : TakesFile reader disk expected base size path image) :
    ¬Refuses reader disk name expected path report := by
  intro hrefuses
  have hok : ofFileWith reader disk name expected base size path = .ok image :=
    ofFileWith_eq_ok_iff.2 h
  simp [hrefuses.ofFileWith_eq] at hok

section Steps

variable {directory : String} {rest : List String}

theorem locateWith_absent (h : disk.isFile (FilePath.join directory name) = false) :
    locateWith reader disk name expected base size (directory :: rest) =
      locateWith reader disk name expected base size rest := by
  rw [locateWith, h]
  rfl

theorem locateWith_taken (hthere : disk.isFile (FilePath.join directory name) = true)
    (h : TakesFile reader disk expected base size (FilePath.join directory name) image) :
    locateWith reader disk name expected base size (directory :: rest) = (some image, []) := by
  simp [locateWith, hthere, ofFileWith_eq_ok_iff.2 h]

theorem locateWith_refused (hthere : disk.isFile (FilePath.join directory name) = true)
    (h : Refuses reader disk name expected (FilePath.join directory name) report) :
    locateWith reader disk name expected base size (directory :: rest) =
      ((locateWith reader disk name expected base size rest).1,
        report :: (locateWith reader disk name expected base size rest).2) := by
  simp [locateWith, hthere, h.ofFileWith_eq]

theorem passes_cons_absent (h : disk.isFile (FilePath.join directory name) = false) :
    Passes reader disk name expected (directory :: rest) reports ↔
      Passes reader disk name expected rest reports := by
  simp [Passes, h]

theorem passes_cons_there (h : disk.isFile (FilePath.join directory name) = true) :
    Passes reader disk name expected (directory :: rest) reports ↔ ∃ report others,
      Refuses reader disk name expected (FilePath.join directory name) report ∧
        Passes reader disk name expected rest others ∧ reports = report :: others := by
  simp [Passes, h, List.forall₂_cons_left_iff]

end Steps

/-- Directories that are passed add their reports, and the search goes on behind them. -/
theorem locateWith_append (h : Passes reader disk name expected before reports) :
    locateWith reader disk name expected base size (before ++ after) =
      ((locateWith reader disk name expected base size after).1,
        reports ++ (locateWith reader disk name expected base size after).2) := by
  induction before generalizing reports with
  | nil =>
    obtain rfl := List.forall₂_nil_left_iff.1 h
    rfl
  | cons directory rest ih =>
    rw [List.cons_append]
    cases hthere : disk.isFile (FilePath.join directory name) with
    | false => rw [locateWith_absent hthere, ih ((passes_cons_absent hthere).1 h)]
    | true =>
      obtain ⟨report, others, hrefuses, hrest, rfl⟩ := (passes_cons_there hthere).1 h
      rw [locateWith_refused hthere hrefuses, ih hrest]
      rfl

theorem Passes.append {others : List Diagnostic}
    (h : Passes reader disk name expected before reports)
    (hafter : Passes reader disk name expected after others) :
    Passes reader disk name expected (before ++ after) (reports ++ others) := by
  rw [Passes, List.map_append, List.filter_append]
  exact List.rel_append h hafter

theorem SearchEnds.append (hpasses : Passes reader disk name expected before reports)
    (h : SearchEnds reader disk name expected base size after result) :
    SearchEnds reader disk name expected base size (before ++ after)
      (result.1, reports ++ result.2) := by
  cases h with
  | nowhere hmore => exact .nowhere (hpasses.append hmore)
  | taken hmore hthere htakes =>
    rw [← List.append_assoc]
    exact .taken (hpasses.append hmore) hthere htakes

theorem searchEnds_locateWith (directories : List String) :
    SearchEnds reader disk name expected base size directories
      (locateWith reader disk name expected base size directories) := by
  induction directories with
  | nil => exact .nowhere List.Forall₂.nil
  | cons directory rest ih =>
    have hnone : Passes reader disk name expected [] [] := List.Forall₂.nil
    cases hthere : disk.isFile (FilePath.join directory name) with
    | false =>
      rw [locateWith_absent hthere]
      exact ih.append ((passes_cons_absent hthere).2 hnone)
    | true =>
      cases hfile : ofFileWith reader disk name expected base size
          (FilePath.join directory name) with
      | ok image =>
        have htakes := ofFileWith_eq_ok_iff.1 hfile
        have htaken : SearchEnds reader disk name expected base size ([] ++ directory :: rest)
            (some image, []) :=
          .taken hnone hthere htakes
        rw [locateWith_taken hthere htakes]
        exact htaken
      | error report =>
        have hrefuses := refuses_of_ofFileWith hfile
        rw [locateWith_refused hthere hrefuses]
        exact ih.append ((passes_cons_there hthere).2 ⟨report, [], hrefuses, hnone, rfl⟩)

/-- The search comes to one thing. -/
theorem locateWith_eq_iff : locateWith reader disk name expected base size directories = result ↔
    SearchEnds reader disk name expected base size directories result := by
  constructor
  · rintro rfl
    exact searchEnds_locateWith directories
  · intro h
    cases h with
    | nowhere hpasses =>
      rw [← List.append_nil directories, locateWith_append hpasses, locateWith, List.append_nil]
    | taken hpasses hthere htakes =>
      rw [locateWith_append hpasses, locateWith_taken hthere htakes, List.append_nil]

/-- Only the files of the name in the directories are looked for, and only those that are there are
opened. -/
theorem locateWith_congr
    (h : ∀ directory ∈ directories,
      disk.isFile (FilePath.join directory name) = other.isFile (FilePath.join directory name) ∧
      (disk.isFile (FilePath.join directory name) = true →
        disk.read (FilePath.join directory name) = other.read (FilePath.join directory name))) :
    locateWith reader disk name expected base size directories =
      locateWith reader other name expected base size directories := by
  induction directories with
  | nil => rfl
  | cons directory rest ih =>
    obtain ⟨⟨hsame, hread⟩, hrest⟩ := List.forall_mem_cons.1 h
    cases hthere : disk.isFile (FilePath.join directory name) with
    | false => rw [locateWith_absent hthere, locateWith_absent (hsame ▸ hthere), ih hrest]
    | true =>
      have hfile : ofFileWith reader disk name expected base size (FilePath.join directory name) =
          ofFileWith reader other name expected base size (FilePath.join directory name) := by
        rw [ofFileWith, ofFileWith, parseWith, parseWith, hread hthere]
      rw [locateWith, locateWith, ← hsame, hfile, ih hrest]

end Image

/-- The image of a module in a dump is what the search for its name comes to. -/
theorem Module.searchEnds_of_ofRecord {c : Container} {disk : Disk} {directories : List String}
    {record : ModuleRecord} {m : Module} {reports : List Diagnostic}
    (h : ofRecord c disk directories record = .ok (m, reports)) :
    Image.SearchEnds ObjectFile.parse disk m.name (m.codeView.map CodeView.signatureBytes) m.base
      m.size directories (m.image, reports) := by
  obtain ⟨path, _, h⟩ := bind_eq_ok.1 h
  obtain ⟨codeView, _, h⟩ := bind_eq_ok.1 h
  obtain ⟨rfl, rfl⟩ := Prod.mk.inj (Except.ok.inj h)
  exact Image.searchEnds_locateWith directories

namespace Image

open FilePath

/-- The image of a module is of the first file with its name that can be understood and is of the
right build. Each file of the name before that one is reported, and no other file is opened. A name
has no separators, so a file of that name is one of the directory and not of any place above or
below it. -/
theorem search_exact :
    (∀ (reader : Buffer → Except ObjectFault ObjectFile) (disk : Disk) (path : String)
      (expected : Option (List UInt8)) (base : Address) (size : UInt64)
      (directories : List String) (result : Option Image × List Diagnostic),
      locateWith reader disk (Module.nameOf path) expected base size directories = result ↔
        SearchEnds reader disk (Module.nameOf path) expected base size directories result) ∧
    (∀ (reader : Buffer → Except ObjectFault ObjectFile) (disk : Disk) (name path : String)
      (expected : Option (List UInt8)) (base : Address) (size : UInt64) (image : Image)
      (report : Diagnostic), TakesFile reader disk expected base size path image →
        ¬Refuses reader disk name expected path report) ∧
    (∀ (reader : Buffer → Except ObjectFault ObjectFile) (disk other : Disk) (path : String)
      (expected : Option (List UInt8)) (base : Address) (size : UInt64)
      (directories : List String),
      (∀ directory ∈ directories,
        disk.isFile (join directory (Module.nameOf path)) =
          other.isFile (join directory (Module.nameOf path)) ∧
        (disk.isFile (join directory (Module.nameOf path)) = true →
          disk.read (join directory (Module.nameOf path)) =
            other.read (join directory (Module.nameOf path)))) →
      locateWith reader disk (Module.nameOf path) expected base size directories =
        locateWith reader other (Module.nameOf path) expected base size directories) ∧
    (∀ path : String, '/' ∉ (Module.nameOf path).toList ∧ '\\' ∉ (Module.nameOf path).toList ∧
      ∃ front, path = front ++ Module.nameOf path ∧
        (front = "" ∨ front.toList.getLast? = some '/' ∨ front.toList.getLast? = some '\\')) ∧
    (∀ path directory : String, named (join directory (Module.nameOf path)) =
      named directory ++ named (Module.nameOf path)) ∧
    (∀ (tree : FileTree) (path directory : String) (data : Buffer),
      tree.disk.read (join directory (Module.nameOf path)) = .ok data ↔
        isAbsolute directory = false ∧ LeadsDown (Module.nameOf path) ∧
          ∃ place, tree.Leads [] (parts directory) place ∧
            tree.node? (place ++ [Module.nameOf path]) = some (.file data)) ∧
    (∀ (tree : FileTree) (path : String),
      tree.disk.isFile path = true ↔ ∃ data, tree.disk.read path = .ok data) ∧
    ∀ (c : Container) (disk : Disk) (directories : List String) (record : ModuleRecord)
      (m : Module) (reports : List Diagnostic),
      Module.ofRecord c disk directories record = .ok (m, reports) →
        SearchEnds ObjectFile.parse disk m.name (m.codeView.map CodeView.signatureBytes) m.base
          m.size directories (m.image, reports) := by
  have hname : ∀ path, '/' ∉ (Module.nameOf path).toList :=
    fun path => (Module.no_separator_nameOf path).1
  refine ⟨fun _ _ _ _ _ _ _ _ => locateWith_eq_iff, fun _ _ _ _ _ _ _ _ _ h => h.not_refuses,
    fun _ _ _ _ _ _ _ _ => locateWith_congr, fun path => ?_,
    fun path directory => named_join (hname path) directory,
    fun tree path directory data => FileTree.read_join_iff (hname path) directory,
    fun tree path => FileTree.isFile_iff, fun _ _ _ _ _ _ => Module.searchEnds_of_ofRecord⟩
  exact ⟨hname path, (Module.no_separator_nameOf path).2, Module.exists_eq_append_nameOf path⟩

def stamp (b : UInt8) : List UInt8 := List.replicate 16 b

/-- A Mach-O file with nothing but an identifier. -/
def stamped (b : UInt8) : Buffer :=
  Buffer.ofBytes ([0xce, 0xfa, 0xed, 0xfe, 7, 0, 0, 0, 3, 0, 0, 0, 6, 0, 0, 0, 1, 0, 0, 0,
    24, 0, 0, 0, 0, 0, 0, 0, 0x1b, 0, 0, 0, 24, 0, 0, 0] ++ stamp b)

/-- Three files of one name: no object file, one of another build and the right one. -/
def threeFiles : FileTree where
  files := [(["a", "x"], Buffer.ofBytes [1]), (["c", "x"], stamped 1), (["d", "x"], stamped 2)]
  directories := [["a"], ["b"], ["c"], ["d"]]

/-- The third file is taken, and the two before it are reported. -/
theorem search_exact_third :
    locateWith ObjectFile.parse threeFiles.disk (Module.nameOf "/lib\\x") (some (stamp 2))
      ⟨0x1000⟩ 0x1000 ["a", "b", "c", "d"] =
        (some ⟨"d/x", some (stamp 2), []⟩,
          [.imageUnreadable "a/x"
            "Invalid argument: failed to parse a/x: Could not read file magic",
            .imageMismatch "x" "c/x"]) := by
  have hname : Module.nameOf "/lib\\x" = "x" := by decide +kernel
  have hthere : ((["a", "b", "c"].map fun directory => join directory "x").filter
      threeFiles.disk.isFile) = ["a/x", "c/x"] := by
    decide +kernel
  have hshort : ObjectFile.parse (Buffer.ofBytes [1]) = .error .noMagic := by decide +kernel
  have hparse : ∀ b ∈ [1, 2], ObjectFile.parse (stamped b) =
      .ok ⟨none, [], [], some (stamp b)⟩ := by
    decide +kernel
  have hother : ¬MayStandFor (some (stamp 2)) (some (stamp 1)) := mt accepts_iff.2 (by decide)
  have hsame : MayStandFor (some (stamp 2)) (some (stamp 2)) := accepts_iff.1 (by decide)
  have hpasses : Passes ObjectFile.parse threeFiles.disk "x" (some (stamp 2)) ["a", "b", "c"]
      [.imageUnreadable "a/x" "Invalid argument: failed to parse a/x: Could not read file magic",
        .imageMismatch "x" "c/x"] := by
    rw [Passes, hthere]
    refine .cons (.unparsed ?_ hshort) (.cons (.mismatch ?_ (hparse 1 (by decide)) hother) .nil)
    · decide +kernel
    · decide +kernel
  have hpath : join "d" "x" = "d/x" := by decide +kernel
  have hcode : codeRanges ⟨none, [], [], some (stamp 2)⟩ ⟨0x1000⟩ 0x1000 = [] := by
    simp [codeRanges, Interval.sort, Interval.distinct]
  have htakes : TakesFile ObjectFile.parse threeFiles.disk (some (stamp 2)) ⟨0x1000⟩ 0x1000
      (join "d" "x") ⟨"d/x", some (stamp 2), []⟩ := by
    have hread : threeFiles.disk.read "d/x" = .ok (stamped 2) := by decide +kernel
    rw [hpath, ← hcode]
    exact .image hread (hparse 2 (by decide)) hsame
  have hends : SearchEnds ObjectFile.parse threeFiles.disk "x" (some (stamp 2)) ⟨0x1000⟩ 0x1000
      (["a", "b", "c"] ++ "d" :: []) _ :=
    .taken hpasses (by decide +kernel) htakes
  refine (search_exact.1 ..).2 ?_
  rw [hname]
  exact hends

end Image
end CrashDump

import CrashDump.Register.ContextKind

/-!
# Register layouts

A layout names slices of a thread context. Most names stand for registers of their own; the others
are further names for a register or for a part of one, so they show the same bytes.
-/
namespace CrashDump

/-- What a register is for. -/
inductive RegisterClass where
  | general
  | status
  | segment
  | floatingPoint
  | vector
  | debug
  deriving DecidableEq, Repr

def RegisterClass.name : RegisterClass → String
  | general => "General"
  | status => "Status"
  | segment => "Segment"
  | floatingPoint => "FloatingPoint"
  | vector => "Vector"
  | debug => "Debug"

/-- A named slice of a context. -/
structure RegisterEntry where
  name : String
  offset : Nat
  width : Nat
  group : RegisterClass
  /-- Whether the name is the register's own. -/
  primary : Bool
  deriving DecidableEq, Repr

namespace RegisterEntry

/-- The slice under another name. -/
def renamed (entry : RegisterEntry) (name : String) : RegisterEntry :=
  { entry with name := name, primary := false }

/-- Whether two slices are the same bytes. -/
def sameSlice (entry other : RegisterEntry) : Bool :=
  entry.offset == other.offset && entry.width == other.width

def named? (entries : List RegisterEntry) (name : String) : Option RegisterEntry :=
  entries.find? fun entry => entry.name == name

/-- So many registers under one stem and a running number, each so far from the one before. -/
def numbered (stem : String) (count offset stride width : Nat) (group : RegisterClass)
    (primary : Bool) : List RegisterEntry :=
  (List.range count).map fun index =>
    ⟨stem ++ toString index, offset + stride * index, width, group, primary⟩

/-- Entries followed by further names, each with the name it stands for. -/
def withNames (entries : List RegisterEntry) (names : List (String × String)) :
    List RegisterEntry :=
  entries ++ names.filterMap fun (name, target) =>
    (named? entries target).map fun entry => entry.renamed name

def arguments (registers : List String) : List (String × String) :=
  registers.zipIdx.map fun (register, index) => ("arg" ++ toString (index + 1), register)

end RegisterEntry

structure RegisterLayout where
  kind : ContextKind
  /-- How many bytes a context must have. -/
  contextSize : Nat
  entries : List RegisterEntry
  deriving DecidableEq, Repr

namespace RegisterLayout

def lookup? (layout : RegisterLayout) (name : String) : Option RegisterEntry :=
  RegisterEntry.named? layout.entries name.toLower

end RegisterLayout
end CrashDump

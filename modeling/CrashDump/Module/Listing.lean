import CrashDump.Container.Streams
import CrashDump.Module.Basic

/-!
# The module list of a dump

Each record of the module list names a path, a debug record and a version; its image is looked for
on disk if there are directories to search. Systems that map a file in pieces may list it once for
each piece, and only the lowest counts there.
-/
namespace CrashDump

namespace VersionInfo

/-- Marks version information that has been filled in. -/
def present : UInt32 := 0xfeef04bd

def text? (info : VersionInfo) : Option String :=
  if info.signature = present then
    let high := info.fileVersionHigh.toNat
    let low := info.fileVersionLow.toNat
    some s!"{high / 65536}.{high % 65536}.{low / 65536}.{low % 65536}"
  else none

end VersionInfo

namespace Module

def codeViewOf (c : Container) (record : ModuleRecord) : Except Malformed (Option CodeView) :=
  if record.codeView.size = 0 then .ok none
  else (c.located record.codeView).map fun bytes => CodeView.parse? bytes.bytes

/-- The image on disk of a module record with the given path and debug record. -/
def imageOf (disk : Disk) (directories : List String) (path : String)
    (codeView : Option CodeView) (record : ModuleRecord) : Option Image × List Diagnostic :=
  Image.locate disk (nameOf path) (codeView.map CodeView.signatureBytes) ⟨record.base⟩
    record.size.toUInt64 directories

def ofRecord (c : Container) (disk : Disk) (directories : List String) (record : ModuleRecord) :
    Except Malformed (Module × List Diagnostic) := do
  let path ← c.string record.nameOffset
  let codeView ← codeViewOf c record
  let (image, reports) := imageOf disk directories path codeView record
  .ok ({
    path := path
    base := ⟨record.base⟩
    size := record.size.toUInt64
    identity := Identity.ofModule codeView record.timeStamp record.size
    codeId := Identity.code record.timeStamp record.size
    codeView := codeView
    checksum := record.checksum
    timeStamp := record.timeStamp
    version := record.version.text?
    image := image }, reports)

end Module

/-- Whether the system maps a file in pieces that are listed one by one. -/
def Platform.repeatsModules : Platform → Bool
  | .linux | .android => true
  | _ => false

def ModuleList.ofContainer (c : Container) (platform : Platform) (disk : Disk)
    (directories : List String) : Except Malformed (ModuleList × List Diagnostic) := do
  let records ← c.modules
  let resolved ← records.mapM (Module.ofRecord c disk directories)
  let list := ModuleList.ofList (resolved.map Prod.fst)
  let reports := resolved.flatMap Prod.snd
  if platform.repeatsModules then
    let (kept, repeats) := list.withoutRepeats
    .ok (kept, reports ++ repeats)
  else .ok (list, reports)

/-- Every path at which an image of a listed module is looked for. -/
def ModuleList.candidates (c : Container) (directories : List String) : List String :=
  let names := (c.modules.toOption.getD []).filterMap fun record =>
    (c.string record.nameOffset).toOption.map Module.nameOf
  names.flatMap fun name => directories.map fun directory => FilePath.join directory name

end CrashDump

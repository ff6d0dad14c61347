import CrashDump.Bytes.Buffer
import CrashDump.Bytes.LittleEndian
import CrashDump.Bytes.Reader
import CrashDump.CommandLine.AddressText
import CrashDump.CommandLine.Arguments
import CrashDump.CommandLine.Report
import CrashDump.CommandLine.Run
import CrashDump.Container.Directory
import CrashDump.Container.Record
import CrashDump.Container.StreamKind
import CrashDump.Container.Streams
import CrashDump.Diagnostic
import CrashDump.Disk
import CrashDump.Environment
import CrashDump.Fault
import CrashDump.FileTree
import CrashDump.Logging
import CrashDump.Main
import CrashDump.Memory.Address
import CrashDump.Memory.Captured
import CrashDump.Memory.Interval
import CrashDump.Memory.Intervals
import CrashDump.Memory.Protection
import CrashDump.Memory.Region
import CrashDump.Memory.RegionMap
import CrashDump.Memory.Search
import CrashDump.Module.Basic
import CrashDump.Module.CodeView
import CrashDump.Module.Image
import CrashDump.Module.Listing
import CrashDump.Object.Coff
import CrashDump.Object.Elf
import CrashDump.Object.Elf.Header
import CrashDump.Object.Elf.Note
import CrashDump.Object.Elf.Symbol
import CrashDump.Object.Fault
import CrashDump.Object.File
import CrashDump.Object.MachO
import CrashDump.Object.Parse
import CrashDump.Object.Pe
import CrashDump.Object.Xcoff
import CrashDump.Options
import CrashDump.Platform
import CrashDump.Process.Maps
import CrashDump.Process.Status
import CrashDump.Proofs.CapturedStore
import CrashDump.Proofs.Separation
import CrashDump.Register.Amd64
import CrashDump.Register.Arm
import CrashDump.Register.Arm64
import CrashDump.Register.Bank
import CrashDump.Register.ContextKind
import CrashDump.Register.Layout
import CrashDump.Register.Value
import CrashDump.Snapshot.Basic
import CrashDump.Snapshot.Load
import CrashDump.Text.Blank
import CrashDump.Text.Calendar
import CrashDump.Text.Column
import CrashDump.Text.Hex
import CrashDump.Text.Numeral
import CrashDump.Text.Unicode
import CrashDump.Thread.Frame
import CrashDump.Thread.Stop
import CrashDump.Proofs.CapturedInsert
import CrashDump.Proofs.CapturedRead
import CrashDump.Proofs.CapturedBuild
import CrashDump.Proofs.CapturedLaws
import CrashDump.Proofs.RecordOrder
import CrashDump.Proofs.Pieces
import CrashDump.Proofs.RegionBuild
import CrashDump.Proofs.Loading
import CrashDump.Proofs.RegionTiling
import CrashDump.Proofs.SnapshotMemory
import CrashDump.Proofs.IntervalUnion
import CrashDump.Proofs.CodeInference
import CrashDump.Proofs.RegionMerge
import CrashDump.Proofs.ReaderWidth
import CrashDump.Proofs.DirectoryScan
import CrashDump.Proofs.ListStreams
import CrashDump.Proofs.Utf16
import CrashDump.Proofs.Utf8
import CrashDump.Proofs.Strings
import CrashDump.Proofs.MemoryLists
import CrashDump.Proofs.InfoStride
import CrashDump.Proofs.Backtrace
import CrashDump.Proofs.StackBound
import CrashDump.Proofs.RegisterSlices
import CrashDump.Proofs.RegisterReads
import CrashDump.Proofs.FrameRegisters
import CrashDump.Proofs.OuterRegisters
import CrashDump.Proofs.Numerals
import CrashDump.Proofs.RegisterViews
import CrashDump.Proofs.ModuleLookup
import CrashDump.Proofs.Identities
import CrashDump.Proofs.RegionNames
import CrashDump.Proofs.Lines
import CrashDump.Proofs.MapsLines
import CrashDump.Proofs.MapsPaths
import CrashDump.Proofs.TypedAddresses
import CrashDump.Proofs.Reports
import CrashDump.Proofs.ThreadContexts
import CrashDump.Proofs.ModuleAssembly
import CrashDump.Proofs.Lossless
import CrashDump.Proofs.LoadFaults
import CrashDump.Proofs.FilePlaces
import CrashDump.Proofs.ImageSearch
import CrashDump.Proofs.CodeSections
import CrashDump.Proofs.RegionOverlap
import CrashDump.Proofs.StopAttribution
import CrashDump.Proofs.Machine.Word
import CrashDump.Proofs.Machine.Streams
import CrashDump.Proofs.Machine.Modules
import CrashDump.Proofs.DebugRecords
import CrashDump.Proofs.Machine.Memory
import CrashDump.Proofs.Machine.Regions
import CrashDump.Proofs.Machine.Threads
import CrashDump.Proofs.Machine.Load

import CrashDump.Text.Blank
import CrashDump.Text.Numeral

/-!
# Status of a process

Reads the status that Linux keeps for a process, a field and its value on each line. The process
number counts only if the text is a complete status: every field that must be there is, and every
known field holds a value of its form.
-/
namespace CrashDump

structure ProcessStatus where
  fields : List (List Char × List Char)
  deriving DecidableEq, Repr

namespace ProcessStatus

inductive Form where
  | text
  | unsigned (base bits : Nat)
  | signed
  | signedList
  | fourUnsigned
  | pair
  | kilobytes
  | mask
  deriving DecidableEq, Repr

def signed? (text : List Char) : Option Int := Numeral.signed? 10 (UInt32.size / 2) text

def Form.accepts (value : List Char) : Form → Bool
  | text => true
  | unsigned base bits => (Numeral.unsigned? base (1 <<< bits) value).isSome
  | signed => (signed? value).isSome
  | signedList => (Text.words value).all fun word => (signed? word).isSome
  | fourUnsigned =>
    let four := (Text.words value).take 4
    four.length == 4 && four.all fun word => (Numeral.unsigned? 10 UInt32.size word).isSome
  | pair =>
    match value.splitOn '/' with
    | first :: second :: _ =>
      (Numeral.unsigned? 10 UInt64.size first).isSome &&
        (Numeral.unsigned? 10 UInt64.size second).isSome
    | _ => false
  | kilobytes => (Numeral.unsigned? 10 UInt64.size (Text.without " kB".toList value)).isSome
  | mask => (value.splitOn ',').all fun part => (Numeral.unsigned? 16 UInt32.size part).isSome

def required : List (String × Form) :=
  [("Name", .text), ("State", .text), ("Tgid", .signed), ("Pid", .signed), ("PPid", .signed),
    ("TracerPid", .signed), ("Uid", .fourUnsigned), ("Gid", .fourUnsigned),
    ("FDSize", .unsigned 10 32), ("Groups", .signedList), ("Threads", .unsigned 10 64),
    ("SigQ", .pair), ("SigPnd", .unsigned 16 64), ("ShdPnd", .unsigned 16 64),
    ("SigBlk", .unsigned 16 64), ("SigIgn", .unsigned 16 64), ("SigCgt", .unsigned 16 64),
    ("CapInh", .unsigned 16 64), ("CapPrm", .unsigned 16 64), ("CapEff", .unsigned 16 64)]

def optional : List (String × Form) :=
  [("Umask", .unsigned 8 32), ("Ngid", .signed), ("NStgid", .signedList), ("NSpid", .signedList),
    ("NSpgid", .signedList), ("NSsid", .signedList), ("VmPeak", .kilobytes),
    ("VmSize", .kilobytes), ("VmLck", .kilobytes), ("VmPin", .kilobytes), ("VmHWM", .kilobytes),
    ("VmRSS", .kilobytes), ("RssAnon", .kilobytes), ("RssFile", .kilobytes),
    ("RssShmem", .kilobytes), ("VmData", .kilobytes), ("VmStk", .kilobytes),
    ("VmExe", .kilobytes), ("VmLib", .kilobytes), ("VmPTE", .kilobytes), ("VmSwap", .kilobytes),
    ("HugetlbPages", .kilobytes), ("CapBnd", .unsigned 16 64), ("CapAmb", .unsigned 16 64),
    ("NoNewPrivs", .unsigned 10 64), ("Seccomp", .unsigned 10 32), ("Cpus_allowed", .mask),
    ("Mems_allowed", .mask), ("voluntary_ctxt_switches", .unsigned 10 64),
    ("nonvoluntary_ctxt_switches", .unsigned 10 64)]

/-- The name before the first colon, and the value between it and the next. -/
def field? (line : List Char) : Option (List Char × List Char) :=
  match line.splitOn ':' with
  | name :: value :: _ => some (name, Text.trim value)
  | _ => none

def ofText? (text : String) : Option ProcessStatus :=
  let lines := (Text.lines text.toList).filter fun line => !line.isEmpty
  (lines.mapM field?).map ProcessStatus.mk

/-- The value of a field; the last line with its name counts. -/
def value? (status : ProcessStatus) (name : String) : Option (List Char) :=
  (status.fields.reverse.find? fun field => field.1 == name.toList).map Prod.snd

def isComplete (status : ProcessStatus) : Bool :=
  (required.all fun (name, form) => (status.value? name).any form.accepts) &&
    optional.all fun (name, form) => (status.value? name).all form.accepts

/-- The process number in the text of a complete status, unless it is negative. -/
def processId? (text : String) : Option UInt32 := do
  let status ← ofText? text
  if status.isComplete then
    let number ← signed? (← status.value? "Pid")
    if number < 0 then none else return UInt32.ofNat number.toNat
  else none

end ProcessStatus
end CrashDump

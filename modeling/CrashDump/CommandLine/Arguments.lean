import CrashDump.Logging
import CrashDump.Text.Numeral

/-!
# Arguments

The words of a command line: a dump, the name of a command, and the command's own words. Options may
stand anywhere; those that any command takes may stand on either side of its name, and then the ones
after the name count. Two dashes end the options of their side, and no command is named after them.
-/
namespace CrashDump

inductive Refusal where
  | usage
  | help
  | version
  deriving DecidableEq, Repr

inductive CommandName where
  | info
  | threads
  | registers
  | modules
  | regions
  | region
  | memory
  | backtrace
  deriving DecidableEq, Repr

namespace CommandName

def table : List (String × CommandName) :=
  [("info", info), ("threads", threads), ("registers", registers), ("modules", modules),
    ("regions", regions), ("region", region), ("memory", memory), ("backtrace", backtrace)]

end CommandName

inductive OptionName where
  | imagePath
  | logLevel
  | thread
  | frame
  | length
  deriving DecidableEq, Repr

namespace OptionName

def long : OptionName → String
  | imagePath => "image-path"
  | logLevel => "log-level"
  | thread => "thread"
  | frame => "frame"
  | length => "length"

/-- The one letter of an option that has one. -/
def short? : OptionName → Option Char
  | thread => some 't'
  | frame => some 'f'
  | length => some 'l'
  | imagePath | logLevel => none

def general : List OptionName := [imagePath, logLevel]

end OptionName

/-- What may stand on one side of the command's name. -/
structure Grammar where
  options : List OptionName
  words : Option Nat
  version : Bool
  emptyWords : Bool

namespace Grammar

/-- Before the name: the dump. -/
def outer : Grammar := ⟨OptionName.general, some 1, true, false⟩

/-- After the name: what the command takes. -/
def ofCommand : CommandName → Grammar
  | .info | .threads | .modules | .regions => ⟨OptionName.general, some 0, false, true⟩
  | .registers => ⟨.thread :: .frame :: OptionName.general, none, false, true⟩
  | .region => ⟨OptionName.general, some 1, false, true⟩
  | .memory => ⟨.length :: OptionName.general, some 1, false, true⟩
  | .backtrace => ⟨.thread :: OptionName.general, some 0, false, true⟩

end Grammar

inductive ArgumentForm where
  | word
  | separator
  | option (name : OptionName) (value : Option String)
  | refused (refusal : Refusal)
  deriving DecidableEq, Repr

namespace ArgumentForm

/-- An option with a long name, and its value after an equals sign if there is one. -/
def ofLong (grammar : Grammar) (text : List Char) : ArgumentForm :=
  let name := String.ofList (text.takeWhile fun c => c != '=')
  let value := match text.dropWhile fun c => c != '=' with
    | _ :: value => some (String.ofList value)
    | [] => none
  match grammar.options.find? fun option => option.long == name with
  | some known => .option known value
  | none =>
    if value.isNone ∧ name = "help" then .refused .help
    else if value.isNone ∧ name = "version" ∧ grammar.version then .refused .version
    else .refused .usage

/-- An option with a short name, and its value if the text goes on. -/
def ofShort (grammar : Grammar) (letter : Char) (rest : List Char) : ArgumentForm :=
  let value := match rest with
    | '=' :: value => some (String.ofList value)
    | [] => none
    | value => some (String.ofList value)
  match grammar.options.find? fun option => option.short? == some letter with
  | some known => .option known value
  | none =>
    if letter = 'h' then .refused .help
    else if letter = 'V' ∧ grammar.version then .refused .version
    else .refused .usage

/-- Tells options from words. A single dash is a word. -/
def of (grammar : Grammar) (argument : String) : ArgumentForm :=
  match argument.toList with
  | ['-', '-'] => .separator
  | '-' :: '-' :: text => ofLong grammar text
  | '-' :: letter :: rest => ofShort grammar letter rest
  | _ => .word

end ArgumentForm

/-- What was given on one side of the command's name. -/
structure Given where
  imagePaths : List String
  logLevel : Option LogLevel
  counts : List (OptionName × Nat)
  words : List String
  /-- An option whose value is the next argument. -/
  pending : Option OptionName
  /-- Whether the options have ended. -/
  ended : Bool
  deriving DecidableEq, Repr

/-- The answer to a call for help on the given topics: the name of one command, or of help itself. -/
def Refusal.ofHelp : List String → Refusal
  | [] => .help
  | [topic] => if topic = "help" ∨ (CommandName.table.lookup topic).isSome then .help else .usage
  | _ => .usage

namespace Given

def nothing : Given := ⟨[], none, [], [], none, false⟩

/-- Sets an option to a value that it can have. Only directories may be given more than once. -/
def set (given : Given) (name : OptionName) (value : String) : Except Refusal Given :=
  match name with
  | .imagePath =>
    if value = "" then .error .usage
    else .ok { given with imagePaths := given.imagePaths ++ [value] }
  | .logLevel =>
    match given.logLevel, LogLevel.ofText value with
    | none, .ok level => .ok { given with logLevel := some level }
    | _, _ => .error .usage
  | .thread | .frame | .length =>
    match given.counts.lookup name, Numeral.unsigned? 10 UInt64.size value.toList with
    | none, some n => .ok { given with counts := (name, n) :: given.counts }
    | _, _ => .error .usage

def word (grammar : Grammar) (given : Given) (text : String) : Except Refusal Given :=
  if grammar.words.any fun limit => limit ≤ given.words.length then .error .usage
  else if text = "" ∧ !grammar.emptyWords then .error .usage
  else .ok { given with words := given.words ++ [text] }

/-- Takes an argument. The value of an option may not look like an option. -/
def step (grammar : Grammar) (given : Given) (argument : String) : Except Refusal Given :=
  if given.ended then given.word grammar argument
  else
    match given.pending, ArgumentForm.of grammar argument with
    | some name, .word => { given with pending := none }.set name argument
    | some _, _ => .error .usage
    | none, .word => given.word grammar argument
    | none, .separator => .ok { given with ended := true }
    | none, .option name (some value) => given.set name value
    | none, .option name none => .ok { given with pending := some name }
    | none, .refused refusal => .error refusal

/-- Takes arguments up to the name of a command, and gives what follows it. -/
def untilCommand (given : Given) : List String → Except Refusal (Given × CommandName × List String)
  | [] => .error .usage
  | argument :: rest =>
    if given.pending.isSome ∨ given.ended then do
      (← given.step Grammar.outer argument).untilCommand rest
    else
      match CommandName.table.lookup argument with
      | some command => .ok (given, command, rest)
      | none =>
        if argument = "help" then .error (Refusal.ofHelp rest)
        else do (← given.step Grammar.outer argument).untilCommand rest

def ofArguments (grammar : Grammar) (arguments : List String) : Except Refusal Given := do
  let given ← arguments.foldlM (step grammar) nothing
  if given.pending.isSome then .error .usage else .ok given

end Given

inductive Command where
  | info
  | threads
  | registers (thread frame : Nat) (names : List String)
  | modules
  | regions
  | region (address : String)
  | memory (address : String) (length : Nat)
  | backtrace (thread : Option Nat)
  deriving DecidableEq, Repr

namespace Command

def firstWord (given : Given) : Except Refusal String :=
  match given.words with
  | word :: _ => .ok word
  | [] => .error .usage

def ofGiven (given : Given) : CommandName → Except Refusal Command
  | .info => .ok info
  | .threads => .ok threads
  | .registers =>
    .ok (registers ((given.counts.lookup .thread).getD 0) ((given.counts.lookup .frame).getD 0)
      given.words)
  | .modules => .ok modules
  | .regions => .ok regions
  | .region => (firstWord given).map region
  | .memory => (firstWord given).map fun address =>
    memory address ((given.counts.lookup .length).getD 64)
  | .backtrace => .ok (backtrace (given.counts.lookup .thread))

end Command

structure Request where
  dump : String
  imagePaths : List String
  logLevel : LogLevel
  command : Command
  deriving DecidableEq, Repr

namespace Request

def ofArguments (arguments : List String) : Except Refusal Request := do
  let (outer, name, rest) ← Given.nothing.untilCommand arguments
  let inner ← Given.ofArguments (Grammar.ofCommand name) rest
  let command ← Command.ofGiven inner name
  let dump ← Command.firstWord outer
  .ok {
    dump := dump
    imagePaths := if inner.imagePaths.isEmpty then outer.imagePaths else inner.imagePaths
    logLevel := (inner.logLevel.or outer.logLevel).getD .warn
    command := command }

end Request
end CrashDump

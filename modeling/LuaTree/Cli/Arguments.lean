import LuaTree.Cli.Number
import LuaTree.Decompiler
import LuaTree.Text.Screen

/-!
# Command line arguments

`Settings` is what the command line asks for. `Arguments.parse` reads it in one pass from left to
right: an option takes its value from the same argument (`--jobs=2`, `-j2`, `-j=2`) or from the next
one that does not look like an option; `--` ends the options; anything else is the input.

A value is looked at when the next argument shows that it is complete. That is why the scan keeps one
argument in hand (`Held`), and it decides which of two mistakes is reported.
-/

namespace LuaTree

/-- What the command line asks for. -/
structure Settings where
  input : PathText -- the file or directory to convert
  runtime : PathText := Tool.defaultRuntime
  archive : PathText := Tool.defaultArchive
  -- where the decompiler runs; beside the executable when not given
  toolDirectory : Option PathText := none
  jobs : Nat := 1 -- how many files are converted at once
  verbosity : Nat := 1
  deriving DecidableEq, Inhabited

namespace Arguments

/-- What takes a value. -/
inductive Slot where
  | input
  | runtime -- `--runtime`
  | archive -- `--archive`
  | toolDirectory -- `--tool-dir`
  | jobs -- `--jobs` and `-j`
  | verbosity -- `--verbosity` and `-v`
  deriving DecidableEq, Inhabited

def Slot.text : Slot → String
  | .input => "<INPUT>"
  | .runtime => "--runtime <RUNTIME>"
  | .archive => "--archive <ARCHIVE>"
  | .toolDirectory => "--tool-dir <TOOL_DIR>"
  | .jobs => "--jobs <JOBS>"
  | .verbosity => "--verbosity <VERBOSITY>"

def Slot.ofLong? (name : List Char) : Option Slot :=
  if name = "runtime".toList then some .runtime
  else if name = "archive".toList then some .archive
  else if name = "tool-dir".toList then some .toolDirectory
  else if name = "jobs".toList then some .jobs
  else if name = "verbosity".toList then some .verbosity
  else none

def Slot.ofShort? (c : Char) : Option Slot :=
  if c = 'j' then some .jobs else if c = 'v' then some .verbosity else none

/-- A mistake on the command line. -/
inductive Mistake where
  | noInput
  | unexpected (argument : List Char) -- an argument that nothing takes
  | noValue (slot : Slot) -- an option without its value, or with an empty one
  | repeated (slot : Slot) -- an option given twice
  -- a value that the option does not accept
  | badValue (slot : Slot) (value : List Char) (reason : String)
  | needlessValue (flag : String) (value : List Char) -- a value for a flag that takes none
  deriving DecidableEq, Inhabited

/-- How a mistake is worded, with what was written set off from the rest. -/
def Mistake.wording : Mistake → String
  | .noInput => "error: the following required arguments were not provided:"
  | .unexpected a => "error: unexpected argument '" ++ Screen.highlighted a ++ "' found"
  | .noValue slot => "error: a value is required for '" ++ slot.text ++ "' but none was supplied"
  | .repeated slot => "error: the argument '" ++ slot.text ++ "' cannot be used multiple times"
  | .badValue slot value reason =>
    "error: invalid value '" ++ Screen.highlighted value ++ "' for '" ++ slot.text ++ "': " ++ reason
  | .needlessValue flag value =>
    "error: unexpected value '" ++ Screen.highlighted value ++ "' for '" ++ flag
      ++ "' found; no more were expected"

/-- How a mistake is shown where nothing obeys the commands in a text. -/
def Mistake.message (m : Mistake) : String := Screen.shown m.wording

/-- Why the arguments ask for no conversion. -/
inductive Stop where
  | mistake (m : Mistake)
  | help -- they ask how the program is used
  | version
  deriving DecidableEq, Inhabited

/-- The values that were given. -/
structure Given where
  input : Option PathText := none
  runtime : Option PathText := none
  archive : Option PathText := none
  toolDirectory : Option PathText := none
  jobs : Option Nat := none
  verbosity : Option Nat := none
  deriving DecidableEq, Inhabited

def jobsBound : Nat := 0xFFFFFFFFFFFFFFFF

def verbosityBound : Nat := 255

/-- Reads a path; an empty one is no value. -/
def readPath (slot : Slot) (value : List Char) : Except Stop PathText :=
  if value = [] then .error (.mistake (.noValue slot)) else .ok value

def readJobs (value : List Char) : Except Stop Nat :=
  match Number.unsigned jobsBound value with
  | .ok n => .ok n
  | .error f => .error (.mistake (.badValue .jobs value f.text))

/-- Reads a verbosity, a number that is read with room to spare and then held against its range. -/
def readVerbosity (value : List Char) : Except Stop Nat :=
  match Number.signed 0x7FFFFFFFFFFFFFFF value with
  | .error f => .error (.mistake (.badValue .verbosity value f.text))
  | .ok n =>
    if 0 ≤ n ∧ n ≤ verbosityBound then .ok n.toNat
    else .error (.mistake (.badValue .verbosity value
      (toString n ++ " is not in 0..=" ++ toString verbosityBound)))

def Given.has (g : Given) : Slot → Bool
  | .input => g.input.isSome
  | .runtime => g.runtime.isSome
  | .archive => g.archive.isSome
  | .toolDirectory => g.toolDirectory.isSome
  | .jobs => g.jobs.isSome
  | .verbosity => g.verbosity.isSome

def Given.set (g : Given) (slot : Slot) (value : List Char) : Except Stop Given :=
  if g.has slot then .error (.mistake (.repeated slot))
  else
    match slot with
    | .input => (readPath slot value).map fun p => { g with input := some p }
    | .runtime => (readPath slot value).map fun p => { g with runtime := some p }
    | .archive => (readPath slot value).map fun p => { g with archive := some p }
    | .toolDirectory => (readPath slot value).map fun p => { g with toolDirectory := some p }
    | .jobs => (readJobs value).map fun n => { g with jobs := some n }
    | .verbosity => (readVerbosity value).map fun n => { g with verbosity := some n }

/-- The argument that the scan has in hand. -/
inductive Held where
  | nothing
  | option (slot : Slot) -- an option that still waits for its value
  | value (slot : Slot) (value : List Char) -- a slot with the value for it, not looked at yet
  deriving DecidableEq, Inhabited

/-- The state of the scan. -/
structure Scan where
  given : Given := {} -- the values looked at so far
  held : Held := .nothing
  inputMet : Bool := false
  optionsOver : Bool := false
  deriving Inhabited

namespace Scan

/-- Puts away what is in hand. -/
def settle (scan : Scan) : Except Stop Scan :=
  match scan.held with
  | .nothing => .ok scan
  | .option slot => .error (.mistake (.noValue slot))
  | .value slot value =>
    (scan.given.set slot value).map fun given => { scan with given, held := .nothing }

/-- Meets an option with the value it carries, if any. -/
def option (scan : Scan) (slot : Slot) (attached : Option (List Char)) : Except Stop Scan := do
  let scan ← scan.settle
  match attached with
  | none => return { scan with held := .option slot }
  | some value =>
    let given ← scan.given.set slot value
    return { scan with given }

def flag (scan : Scan) (stop : Stop) : Except Stop Scan := do
  let _ ← scan.settle
  throw stop

/-- Meets an argument that starts with two dashes, without them. -/
def long (scan : Scan) (body : List Char) : Except Stop Scan :=
  let (name, rest) := body.span (· ≠ '=')
  let attached :=
    match rest with
    | [] => none
    | _ :: value => some value
  match Slot.ofLong? name with
  | some slot => scan.option slot attached
  | none =>
    if name = "help".toList then
      match attached with
      | none => scan.flag .help
      | some value => .error (.mistake (.needlessValue "--help" value))
    else if name = "version".toList then
      match attached with
      | none => scan.flag .version
      | some value => .error (.mistake (.needlessValue "--version" value))
    else .error (.mistake (.unexpected ('-' :: '-' :: name)))

/-- Meets an argument that starts with one dash: the letter after it and the rest. -/
def short (scan : Scan) (c : Char) (rest : List Char) : Except Stop Scan :=
  match Slot.ofShort? c with
  | some slot =>
    scan.option slot <|
      match rest with
      | [] => none
      | '=' :: value => some value
      | value => some value
  | none =>
    if c = 'h' then scan.flag .help
    else if c = 'V' then scan.flag .version
    else .error (.mistake (.unexpected ['-', c]))

/-- Meets an argument that is no option and no option's value. -/
def positional (scan : Scan) (a : List Char) : Except Stop Scan := do
  if scan.inputMet then throw (.mistake (.unexpected a))
  let scan ← scan.settle
  return { scan with held := .value .input a, inputMet := true }

def argument (scan : Scan) (a : List Char) : Except Stop Scan :=
  if scan.optionsOver then scan.positional a
  else
    match a with
    | ['-', '-'] => .ok { scan with optionsOver := true }
    | '-' :: '-' :: body => scan.long body
    | '-' :: c :: rest => scan.short c rest
    | a =>
      match scan.held with
      | .option slot => .ok { scan with held := .value slot a }
      | _ => scan.positional a

end Scan

/-- The settings that values ask for, with the defaults for what was not given. -/
def Given.settings (g : Given) : Except Stop Settings :=
  match g.input with
  | none => .error (.mistake .noInput)
  | some input => .ok
    { input
      runtime := g.runtime.getD Tool.defaultRuntime
      archive := g.archive.getD Tool.defaultArchive
      toolDirectory := g.toolDirectory
      jobs := g.jobs.getD 1
      verbosity := g.verbosity.getD 1 }

/-- Reads the arguments. -/
def parse (arguments : List PathText) : Except Stop Settings := do
  let scan ← arguments.foldlM Scan.argument {}
  let scan ← scan.settle
  scan.given.settings

end Arguments

end LuaTree

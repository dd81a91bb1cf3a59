import LuaTree.Shell.Descriptor
import LuaTree.Shell.Quote

/-!
# Utilities

A utility is a program that is part of the machine and not a script. It is called by a name with
arguments, reads and writes through descriptors and answers with its status. This module holds what the
utilities have in common: options, input files, output and complaints.

Input is taken block by block or line by line, so that a utility can read from a source that never ends as
long as it stops asking.
-/

namespace LuaTree.Shell

/-- A program of the machine: from the name it is called by and its arguments to its status. -/
abbrev Utility := Raw → List Raw → Run Nat

namespace Utility

open Run

/-! ## Complaints -/

/-- Writes a message that begins with a program's name. -/
def complain (name : Raw) (message : Raw) : Run Unit := complainLine (name ++ ": ".toList ++ message)

/-- Says which file could not be dealt with, and why. -/
def complainAbout (name : Raw) (task : String) (file : Raw) (e : IoError) : Run Unit :=
  complain name (task.toList ++ ' ' :: Quote.always file ++ ": ".toList ++ (refusalText e).toList)

def complainFile (name file : Raw) (e : IoError) : Run Unit :=
  complain name (Quote.ifNeeded true file ++ ": ".toList ++ (refusalText e).toList)

/-- Writes a message and points to the help text. -/
def complainUsage (name message : Raw) (status : Nat := 1) : Run Nat := do
  complain name message
  complainLine ("Try '".toList ++ name ++ " --help' for more information.".toList)
  return status

def complainMissing (name : Raw) (what : String := "operand") (status : Nat := 1) : Run Nat :=
  complainUsage name ("missing ".toList ++ what.toList) status

def complainExtra (name operand : Raw) (status : Nat := 1) : Run Nat :=
  complainUsage name ("extra operand ".toList ++ Quote.shown operand) status

/-- Says that an argument of an option is none of those that it takes. -/
def complainChoice (name option given : Raw) (choices : List String) : Run Nat := do
  complain name ("invalid argument ".toList ++ Quote.shown given ++ " for '--".toList ++ option ++ ['\''])
  complainLine "Valid arguments are:".toList
  for c in choices do complainLine ("  - '".toList ++ c.toList ++ ['\''])
  complainLine ("Try '".toList ++ name ++ " --help' for more information.".toList)
  return 1

/-- Reads a number that must lie within limits; what is not such a number ends the utility. -/
def numberWithin (name : Raw) (what : String) (least most : Int) (t : Raw) (status : Nat := 1) : Run Int := do
  let refuse (why : String) : Run Int := do
    complain name (what.toList ++ ": ".toList ++ Quote.shown t ++ why.toList)
    throw (.exit status)
  match Raw.int? (t.dropWhile Char.isWhitespace) with
  | none => refuse ""
  | some n =>
    if least ≤ n ∧ n ≤ most then return n
    refuse (if n < -1073741824 ∨ 1073741823 < n then ": Value too large for defined data type"
      else ": Numerical result out of range")

/-! ## Output -/

/-- Writes to the standard output; a utility that cannot says so and ends. -/
def put (data : Bytes) (status : Nat := 1) : Run Unit := do
  match ← write 1 data with
  | .ok () => return ()
  | .error e =>
    complain (← environment).name ("write error: ".toList ++ e.text.toList)
    throw (.exit status)

/-- Writes raw text to the standard output. -/
def putText (t : Raw) (status : Nat := 1) : Run Unit := put (Raw.bytes t) status

def putLine (t : Raw) (status : Nat := 1) : Run Unit := putText (t ++ ['\n']) status

/-! ## Options -/

/-- Options and operands. -/
structure Options where
  given : List (Char × Raw) := [] -- the options with their values, in order
  operands : List Raw := []

namespace Options

def has (o : Options) (c : Char) : Bool := o.given.any (·.1 = c)

def value? (o : Options) (c : Char) : Option Raw := (o.given.reverse.find? (·.1 = c)).map (·.2)

/-- The values of an option, in order. -/
def values (o : Options) (c : Char) : List Raw := (o.given.filter (·.1 = c)).map (·.2)

def last? (o : Options) (among : String) : Option Char :=
  (o.given.reverse.find? fun p => among.toList.contains p.1).map (·.1)

end Options

/-- Which options a utility has. -/
structure OptionTable where
  flags : String := "" -- the letters of those without a value
  valued : String := ""
  long : List (String × Char) := [] -- the names, each with the letter that it stands for
  -- the letters of those that may have a value, but not in the next argument
  optional : String := ""
  inOrder : Bool := false -- whether options end at the first operand

namespace OptionTable

/-- Reads the letters of one argument; tells which option still needs its value. -/
def letters (k : OptionTable) (read : List (Char × Raw)) :
    Raw → Except Raw (List (Char × Raw) × Option Char)
  | [] => .ok (read, none)
  | c :: rest =>
    if k.valued.toList.contains c then
      if rest = [] then .ok (read, some c) else .ok ((c, rest) :: read, none)
    else if k.optional.toList.contains c then .ok ((c, rest) :: read, none)
    else if k.flags.toList.contains c then k.letters ((c, []) :: read) rest
    else .error ("invalid option -- ".toList ++ Quote.shown [c])

/-- The option that a name stands for, which may be cut short. -/
def named (k : OptionTable) (name : Raw) : Except Raw Char :=
  let text := String.ofList name
  let known := k.long ++ [("help", '\x01'), ("version", '\x02')]
  match known.lookup text with
  | some c => .ok c
  | none =>
    match known.filter fun p => p.1.startsWith text with
    | [] => .error ("unrecognized option '--".toList ++ name ++ ['\''])
    | (full, c) :: more =>
      if more.all fun p => p.2 = c then .ok c
      else
        let all := ((full, c) :: more).flatMap fun p => " '--".toList ++ p.1.toList ++ ['\'']
        .error ("option '--".toList ++ name ++ "' is ambiguous; possibilities:".toList ++ all)

def fullName (k : OptionTable) (name : Raw) (c : Char) : Raw :=
  if (k.long.lookup (String.ofList name)).isSome then name
  else ((k.long.find? fun p => p.2 = c && name.isPrefixOf p.1.toList).map (·.1.toList)).getD name

def read (k : OptionTable) : Options → List Raw → Except Raw Options
  | o, [] => .ok { given := o.given.reverse, operands := o.operands.reverse }
  | o, a :: rest =>
    let ended (operands : List Raw) : Except Raw Options :=
      .ok { given := o.given.reverse, operands := o.operands.reverse ++ operands }
    match a with
    | ['-', '-'] => ended rest
    | '-' :: '-' :: text =>
      let name := text.takeWhile (· ≠ '=')
      let value? := if name.length < text.length then some (text.drop (name.length + 1)) else none
      match k.named name with
      | .error message =>
        if value?.isSome ∧ message.getLast? = some '\'' ∧ !message.contains ';' then
          .error ("unrecognized option '--".toList ++ text ++ ['\''])
        else .error message
      | .ok c =>
        let quoted := "'--".toList ++ k.fullName name c ++ ['\'']
        if k.valued.toList.contains c then
          match value?, rest with
          | some v, rest => k.read { o with given := (c, v) :: o.given } rest
          | none, v :: rest => k.read { o with given := (c, v) :: o.given } rest
          | none, [] => .error ("option ".toList ++ quoted ++ " requires an argument".toList)
        else if value?.isSome ∧ !k.optional.toList.contains c then
          .error ("option ".toList ++ quoted ++ " doesn't allow an argument".toList)
        else k.read { o with given := (c, value?.getD []) :: o.given } rest
    | '-' :: c :: t =>
      match k.letters o.given (c :: t) with
      | .error message => .error message
      | .ok (given, none) => k.read { o with given } rest
      | .ok (given, some d) =>
        match rest with
        | [] => .error ("option requires an argument -- ".toList ++ Quote.shown [d])
        | v :: rest => k.read { o with given := (d, v) :: given } rest
    | a =>
      if k.inOrder then ended (a :: rest)
      else k.read { o with operands := a :: o.operands } rest

end OptionTable

/-- Reads options and goes on with them, or complains about them. -/
def withTable (k : OptionTable) (act : Raw → Options → Run Nat) (status : Nat := 1) : Utility :=
  fun name arguments => do
    match k.read {} arguments with
    | .ok o => act name o
    | .error message => complainUsage name message status

/-- Reads options and goes on with them, or complains about them. -/
def withOptions (flags valued : String) (long : List (String × Char))
    (act : Raw → Options → Run Nat) (status : Nat := 1) : Utility :=
  withTable { flags, valued, long } act status

/-! ## Input -/

/-- The descriptor under which a utility reads a file. -/
def inputDescriptor : Nat := 9000

/-- Does something with a descriptor from which a file can be read; a dash is the standard input. -/
def withInput {α : Type} (file : Raw) (act : Nat → Run α) : Run (Except IoError α) := do
  if file = ['-'] then return .ok (← act 0)
  match ← openInput (Raw.path file) with
  | .error e => return .error e
  | .ok c =>
    let answer ← keepingDescriptors do
      setDescriptor inputDescriptor (some c)
      act inputDescriptor
    return .ok answer

/-- What an attempt to open and to read has come to. -/
def joined {α : Type} : Except IoError (Except Errno α) → Except IoError α
  | .ok (.ok a) => .ok a
  | .ok (.error e) => .error (.os e)
  | .error e => .error e

/-- All that can be read under a name; a dash is the standard input. -/
def inputOf (file : Raw) : Run (Except IoError Bytes) := return joined (← withInput file readAll)

/-- The input files among operands, the standard input if there are none. -/
def inputFiles (operands : List Raw) : List Raw := if operands = [] then [['-']] else operands

/-- Reads all input files and says which ones cannot be read; the status tells whether there were any. -/
def inputs (name : Raw) (files : List Raw)
    (wording : Raw → IoError → Run Unit := fun file e => complainFile name file e) :
    Run (List (Raw × Bytes) × Nat) := do
  let mut read := #[]
  let mut status := 0
  for file in inputFiles files do
    match ← inputOf file with
    | .ok data => read := read.push (file, data)
    | .error e =>
      wording file e
      status := 1
  return (read.toList, status)

/-- Makes a text out of all input. -/
def filter (name : Raw) (files : List Raw) (f : Bytes → Bytes) : Run Nat := do
  let (read, status) ← inputs name files
  put (f (read.flatMap fun (_, data) => data))
  return status

def eachInputBlock (name : Raw) (files : List Raw) (act : Bytes → Run Unit) : Run Nat := do
  let mut status := 0
  for file in inputFiles files do
    let answer ← withInput file fun d => eachBlock d fun data => do
      act data
      return true
    match joined answer with
    | .ok () => pure ()
    | .error e =>
      complainFile name file e
      status := 1
  return status

/-- Splits bytes into complete lines, without their ends, and the rest. -/
def splitLines (data : Raw) : List Raw × Raw :=
  let parts := data.splitOn '\n'
  (parts.dropLast, parts.getLastD [])

/-- Does something with every line of what can be read from a descriptor, as long as it asks for more; it
is told whether the line is complete. -/
def eachLine (descriptor : Nat) (act : Raw → (complete : Bool) → Run Bool) (ending : Char := '\n') :
    Run (Except Errno Unit) :=
  go rounds []
where
  -- goes through lines; answers whether there is more to do
  through : List Raw → Run Bool
    | [] => return true
    | line :: rest => do if ← act line true then through rest else return false
  -- goes on with the next block; `begun` is the line that has been begun
  go : (fuel : Nat) → (begun : Raw) → Run (Except Errno Unit)
    | 0, _ => return .ok ()
    | fuel + 1, begun => do
      match ← readSome descriptor blockSize with
      | .error e => return .error e
      | .ok [] =>
        if begun ≠ [] then discard (act begun false)
        return .ok ()
      | .ok data =>
        match (Raw.ofBytes data).splitOn ending with
        | [] => return .ok ()
        | first :: more =>
          let lines := (begun ++ first) :: more
          if ← through lines.dropLast then go fuel (lines.getLastD []) else return .ok ()

/-- Does something with every line of the input files, as long as it asks for more. -/
def eachInputLine (name : Raw) (files : List Raw) (act : Raw → (complete : Bool) → Run Bool) :
    Run Nat := do
  let mut status := 0
  for file in inputFiles files do
    match joined (← withInput file fun d => eachLine d act) with
    | .ok () => pure ()
    | .error e =>
      complainFile name file e
      status := 1
  return status

/-- Does something for every operand; the status tells whether all went well. -/
def forEach (operands : List Raw) (act : Raw → Run Bool) : Run Nat := do
  let mut status := 0
  for a in operands do
    if !(← act a) then status := 1
  return status

def linesOf (data : Bytes) : List Raw := (Raw.lines (Raw.ofBytes data)).1

/-- The parts of a text each of which ends in a character, the last one perhaps not. -/
def recordsOf (ending : Char) (t : Raw) : List Raw :=
  let parts := t.splitOn ending
  if parts.getLastD [] = [] then parts.dropLast else parts

def unlines (ls : List Raw) : Raw := ls.flatMap (· ++ ['\n'])

/-- A number set to the right. -/
def column (width n : Nat) : Raw :=
  let t := Raw.ofNat n
  List.replicate (width - t.length) ' ' ++ t

end Utility

end LuaTree.Shell

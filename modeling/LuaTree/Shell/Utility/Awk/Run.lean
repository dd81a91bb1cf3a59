import LuaTree.Shell.Regular.Reader
import LuaTree.Shell.Utility.Awk.Parser
import LuaTree.Shell.Utility.Awk.Table
import LuaTree.Shell.Utility.Feed
import LuaTree.Shell.Utility.Starting

/-!
# Following rules

A program of `awk` as it runs: the record and its fields, what names stand for, and the files and commands that
are read from and written to.

What goes to the standard output is kept back and written before anything else is started, and at the end.
-/

namespace LuaTree.Shell.Awk

open Run Utility

/-- What a name stands for within a function. -/
inductive Slot where
  | value (v : Value)
  | table (x : Raw) -- the table that is kept under another name
  deriving Inhabited

/-- Something that is written to. -/
structure Sink where
  name : Raw
  descriptor? : Option Nat -- the descriptor; a command gets all at once in the end
  pending : List Raw := [] -- what has been written for a command, last first

/-- Something that is read from. -/
structure Source where
  name : Raw
  feed : Feed
  status : Nat := 0 -- the status, if it is a command

/-- A program as it runs. -/
structure State where
  program : Program
  values : Std.HashMap Raw Value := {}
  -- the tables; those of functions have names that no program can spell
  tables : Std.HashMap Raw Table := {}
  frame : List (Raw × Slot) := [] -- what names stand for within the function that is called
  waiting : Nat := 0 -- how many arguments the functions have that have been called
  counter : Nat := 0
  record : Raw := []
  fields : Array Value := #[]
  regulars : Std.HashMap Raw Regular := {}
  pending : List Raw := [] -- what goes to the standard output, last first
  pendingSize : Nat := 0
  sinks : List Sink := [] -- what is written to, latest first
  sources : List Source := []
  main? : Option Feed := none -- the records of the file among the arguments, once it has been begun
  argument : Nat := 1
  hadFile : Bool := false
  isOver : Bool := false
  within : List Nat := [] -- the pairs of patterns between which the records are
  status : Nat := 0
  seed : Nat := 0 -- the start of the next random number

/-- Why a program does not go on as written. -/
inductive Leaving where
  | next
  | exit
  | failed -- something is wrong, and has been told
  deriving DecidableEq

/-- What a statement leads to. -/
inductive Flow where
  | on
  | stop
  | again -- the next round of a loop
  | leave (v : Value)

/-- A step of a program. -/
abbrev Step := ExceptT Leaving (StateT State Run)

/-- What a program needs to start others. -/
structure Tools where
  start : Starter
  tableArguments : List (Raw × List Bool) -- the functions, with the arguments that are tables

namespace Step

def outside {α : Type} (act : Run α) : Step α := liftM (m := Run) act

/-! ## Names -/

/-- A value under a name that every program knows. -/
def setting (x : String) : Step Raw := do
  let s ← get
  return ((s.values.get? x.toList).getD .unset).toText "%.6g".toList

/-- How numbers become texts. -/
def convention : Step Raw := setting "CONVFMT"

def textOf (v : Value) : Step Raw := do
  match v with
  | .text t | .input t => return t
  | .unset => return []
  | .number x => return textOfNumber (← convention) x

/-- Sets a value under a name that every program knows. -/
def put (x : String) (v : Value) : Step Unit := modify fun s => { s with values := s.values.insert x.toList v }

/-- Says what went wrong while running and ends. -/
def crash {α : Type} (message : Raw) : Step α := do
  let s ← get
  let shown (x : String) : Raw := ((s.values.get? x.toList).getD .unset).toText "%.6g".toList
  outside do
    complain "awk".toList ("run time error: ".toList ++ message)
    complainLine ("\tFILENAME=\"".toList ++ shown "FILENAME" ++ "\" FNR=".toList ++ shown "FNR"
      ++ " NR=".toList ++ shown "NR")
  modify fun s => { s with status := 2 }
  throw .failed

/-- How many arguments may be waiting in the functions that have been called. -/
def deepestArguments : Nat := 1005

/-- Says what is wrong and ends. -/
def lament {α : Type} (message : Raw) : Step α := do
  outside (complain "awk".toList message)
  modify fun s => { s with status := 2 }
  throw .failed

/-! ## Regular expressions -/

def regular (t : Raw) : Step Regular := do
  let s ← get
  match s.regulars.get? t with
  | some r => return r
  | none =>
    match Regular.read { isExtended := true, isLenient := true, hasLetters := true } t with
    | .ok (r, _) =>
      set { s with regulars := s.regulars.insert t r }
      return r
    | .error e => lament ("regular expression compile failed (".toList ++ e.text.toList ++ ")\n".toList ++ t)

def occurs (pattern text : Raw) : Step Bool := do
  return (← regular pattern).occurs { chars := text.toArray }

/-! ## Fields -/

/-- Cuts a text at blanks. -/
def words : (fuel : Nat) → Raw → List Raw
  | 0, _ => []
  | fuel + 1, t =>
    let t := t.dropWhile isBlank
    if t = [] then []
    else
      let word := t.takeWhile fun c => !isBlank c
      word :: words fuel (t.drop word.length)

/-- Cuts a text at the matches of a regular expression that are not empty. -/
def cuts (r : Regular) (s : Regular.Subject) (t : Raw) : (fuel : Nat) → (start place : Nat) → List Raw
  | 0, _, _ => []
  | fuel + 1, start, place =>
    match r.find? s place with
    | none => [t.drop start]
    | some m =>
      if m.finish = m.start then
        if m.start < t.length then cuts r s t fuel start (m.start + 1) else [t.drop start]
      else (t.take m.start).drop start :: cuts r s t fuel m.finish m.finish

def fieldsOf (separator t : Raw) : Step (List Raw) := do
  if t = [] then return []
  match separator with
  | [] => return t.map fun c => [c]
  | [' '] => return words (t.length + 1) t
  | [c] => return t.splitOn c
  | _ => return cuts (← regular separator) { chars := t.toArray } t (t.length + 2) 0 0

def setRecord (t : Raw) : Step Unit := do
  let fields ← fieldsOf (← setting "FS") t
  modify fun s => { s with record := t, fields := (fields.map Value.input).toArray }

/-- Puts the record together from its fields. -/
def rebuild : Step Unit := do
  let between ← setting "OFS"
  let s ← get
  let texts ← s.fields.toList.mapM textOf
  modify fun s => { s with record := between.intercalate texts }

def setField (n : Int) (v : Value) : Step Unit := do
  match n with
  | .negSucc _ => crash ("negative field index $".toList ++ Raw.ofInt n)
  | .ofNat 0 => setRecord (← textOf v)
  | .ofNat (k + 1) =>
    modify fun s =>
      let missing := k + 1 - s.fields.size
      let fields := s.fields ++ Array.replicate missing (Value.input [])
      { s with fields := fields.set! k v }
    rebuild

def getField (n : Int) : Step Value := do
  match n with
  | .negSucc _ => crash ("negative field index $".toList ++ Raw.ofInt n)
  | .ofNat 0 => return .input (← get).record
  | .ofNat (k + 1) => return (← get).fields.getD k .unset

def setCount (n : Int) : Step Unit := do
  match n with
  | .negSucc _ => crash "negative value assigned to NF".toList
  | .ofNat k =>
    modify fun s => { s with fields := s.fields.take k ++ Array.replicate (k - s.fields.size) (Value.input []) }
    rebuild

/-! ## Values of names -/

def valueOf (x : Raw) : Step Value := do
  let s ← get
  match s.frame.lookup x with
  | some (.value v) => return v
  | some (.table _) => return .unset
  | none =>
    if x = "NF".toList then return .ofNat s.fields.size
    return (s.values.get? x).getD .unset

def setValue (x : Raw) (v : Value) : Step Unit := do
  let s ← get
  if (s.frame.lookup x).isSome then
    set { s with frame := s.frame.map fun (y, old) => if y = x then (y, .value v) else (y, old) }
  else if x = "NF".toList then setCount (wholeOf v.toNumber)
  else set { s with values := s.values.insert x v }

def tableName (x : Raw) : Step Raw := do
  match (← get).frame.lookup x with
  | some (.table y) => return y
  | some (.value _) =>
    -- a local name turns out to be a table
    modify fun s =>
      let y := ' ' :: Raw.ofNat s.counter
      { s with
        counter := s.counter + 1
        frame := s.frame.map fun (z, old) => if z = x then (z, .table y) else (z, old) }
    return ' ' :: Raw.ofNat ((← get).counter - 1)
  | none => return x

def tableOf (x : Raw) : Step (Raw × Table) := do
  let y ← tableName x
  return (y, ((← get).tables.get? y).getD {})

def setTable (y : Raw) (t : Table) : Step Unit := modify fun s => { s with tables := s.tables.insert y t }

/-! ## Output -/

/-- Writes what has been kept back. -/
def flush : Step Unit := do
  let s ← get
  if s.pending ≠ [] then
    set { s with pending := [], pendingSize := 0 }
    outside (putText s.pending.reverse.flatten 2)

/-- Writes to the standard output in the end. -/
def say (t : Raw) : Step Unit := do
  modify fun s => { s with pending := t :: s.pending, pendingSize := s.pendingSize + t.length }
  if 4096 ≤ (← get).pendingSize then flush

def freshDescriptor : Step Nat := do
  let s ← get
  set { s with counter := s.counter + 1 }
  return 9200 + s.counter

/-- Runs a command; its input may be given. -/
def runCommand (k : Tools) (shell : Raw) (input? : Option Channel) (command : Raw) : Step Nat :=
  outside do
    let act : Run (Except Errno Ending) := k.start false shell ["-c".toList, command]
    let ended ← match input? with
      | some c => withChannel 0 c act
      | none => act
    match ended with
    | .ok (.exited n) => return n
    | .ok (.killed n) => return 256 + n
    | .error _ => return 127

def shellPath : Raw := "/bin/sh".toList

/-- Closes what is written to; answers with its status. -/
def closeSink (k : Tools) (x : Sink) : Step Nat := do
  match x.descriptor? with
  | some d =>
    outside (setDescriptor d none)
    return 0
  | none =>
    let source ← outside (textSource (Raw.bytes x.pending.reverse.flatten))
    runCommand k shellPath (some source) x.name

/-- Writes a text to a target. -/
def emit (outlet : Outlet) (name t : Raw) : Step Unit := do
  let s ← get
  if outlet ≠ .command ∧ (name = "/dev/stdout".toList ∨ name = ['-']) then say t
  else if outlet ≠ .command ∧ name = "/dev/stderr".toList then outside (discard (writeText 2 t))
  else
    match s.sinks.find? fun x => x.name = name with
    | some x =>
      match x.descriptor? with
      | some d => outside (discard (writeText d t))
      | none =>
        let sinks := s.sinks.map fun y => if y.name = name then { y with pending := t :: y.pending } else y
        set { s with sinks }
    | none =>
      match outlet with
      | .command =>
        flush
        modify fun s => { s with sinks := { name, descriptor? := none, pending := [t] } :: s.sinks }
      | outlet =>
        match ← outside (openOutput (if outlet = .fileEnd then .atEnd else .anew) (Raw.path name)) with
        | .error e =>
          lament ("cannot open \"".toList ++ name ++ "\" for output (".toList ++ (refusalText e).toList ++ [')'])
        | .ok c =>
          let d ← freshDescriptor
          outside do
            setDescriptor d (some c)
            discard (writeText d t)
          modify fun s => { s with sinks := { name, descriptor? := some d } :: s.sinks }

/-! ## Input -/

/-- Takes off a record that a regular expression ends. -/
def cutMatch (r : Regular) : Cutting := fun t isWhole =>
  match r.find? { chars := t.toArray } 0 with
  | some m =>
    -- more of the text could make the match longer
    if m.finish < t.length ∨ isWhole then
      if m.finish = m.start then if isWhole ∧ t ≠ [] then some (t, false, []) else none
      else some (t.take m.start, true, t.drop m.finish)
    else none
  | none => if isWhole ∧ t ≠ [] then some (t, false, []) else none

/-- The text up to an empty line, and what follows. -/
def upToGap : (read : Raw) → Raw → Option (Raw × Raw)
  | _, [] => none
  | read, '\n' :: '\n' :: rest => some (read.reverse, rest)
  | read, c :: rest => upToGap (c :: read) rest

def cutParagraph : Cutting := fun t isWhole =>
  let t := t.dropWhile (· = '\n')
  match upToGap [] t with
  | some (record, rest) =>
    let rest := rest.dropWhile (· = '\n')
    if rest = [] ∧ !isWhole then none else some (record, true, rest)
  | none =>
    if isWhole ∧ t ≠ [] then some ((if t.getLast? = some '\n' then t.dropLast else t), false, []) else none

/-- How records are taken off the input. -/
def cutting : Step Cutting := do
  match ← setting "RS" with
  | [] => return cutParagraph
  | [c] => return cutLine c
  | t => return cutMatch (← regular t)

def nextOf (f : Feed) : Step (Option Raw × Feed) := do
  let cut ← cutting
  let (record?, f) ← outside (Feed.next? cut (fun _ _ _ => return 1) rounds f)
  return (record?.map Piecemeal.text, f)

def assignArgument (a : Raw) : Step Unit := do
  let x := a.takeWhile (· ≠ '=')
  let t := a.drop (x.length + 1)
  setValue x (.input (unescaped (t.length + 1) t))

/-- Whether an argument sets a variable. -/
def isAssignment (a : Raw) : Bool := a.contains '=' && Raw.isName (a.takeWhile (· ≠ '='))

/-- The file with which the input goes on, if there is one. -/
def nextFile? : (fuel : Nat) → Step (Option Raw)
  | 0 => return none
  | fuel + 1 => do
    let s ← get
    let count := wholeOf ((s.values.get? "ARGC".toList).getD .unset).toNumber
    if count ≤ s.argument then
      if s.hadFile then return none
      set { s with hadFile := true }
      return some ['-']
    set { s with argument := s.argument + 1 }
    let value? := ((s.tables.get? "ARGV".toList).getD {}).get? (.whole s.argument)
    let a ← textOf (value?.getD .unset)
    if a = [] then nextFile? fuel
    else if isAssignment a then
      assignArgument a
      nextFile? fuel
    else
      modify fun s => { s with hadFile := true }
      return some a

def begin (file : Raw) : Step Feed := do
  if file ≠ ['-'] then put "FILENAME" (.text file)
  put "FNR" (.number 0)
  if file ≠ ['-'] then
    match ← outside (openInput (Raw.path file)) with
    | .error e => lament ("cannot open \"".toList ++ file ++ "\" (".toList ++ (refusalText e).toList ++ [')'])
    | .ok _ => pure ()
  return { descriptor := 9100, files := [if file = "/dev/stdin".toList then ['-'] else file] }

/-- Takes the next record of the input, without counting it. -/
def mainRecord? : (fuel : Nat) → Step (Option Raw)
  | 0 => return none
  | fuel + 1 => do
    let s ← get
    if s.isOver then return none
    match s.main? with
    | some f =>
      let (record?, f) ← nextOf f
      match record? with
      | some t =>
        modify fun s => { s with main? := some f }
        return some t
      | none =>
        modify fun s => { s with main? := none }
        mainRecord? fuel
    | none =>
      match ← nextFile? 100000 with
      | none =>
        modify fun s => { s with isOver := true }
        return none
      | some file =>
        let f ← begin file
        modify fun s => { s with main? := some f }
        mainRecord? fuel

/-- Adds one to a value under a name that every program knows. -/
def countUp (x : String) : Step Unit := do
  let v := ((← get).values.get? x.toList).getD .unset
  put x (.number (v.toNumber + 1))

/-- Makes the next record of the input the record. -/
def advance? : Step Bool := do
  match ← mainRecord? 100000 with
  | none => return false
  | some t =>
    countUp "NR"
    countUp "FNR"
    setRecord t
    return true

/-- Takes a record of a source that may have to be opened first; nothing if it cannot be. -/
def sourceRecord? (openIt : Step (Option Source)) (name : Raw) : Step (Option (Option Raw)) := do
  let s ← get
  let source? ← match s.sources.find? fun x => x.name = name with
    | some x => pure (some x)
    | none => openIt
  match source? with
  | none => return none
  | some x =>
    let (record?, feed) ← nextOf x.feed
    modify fun s =>
      { s with sources := { x with feed } :: s.sources.filter fun y => y.name ≠ name }
    return some record?

def openFile (name : Raw) : Step (Option Source) := do
  let file := if name = "/dev/stdin".toList then ['-'] else name
  let source : Source := { name, feed := { descriptor := ← freshDescriptor, files := [file] } }
  if file = ['-'] then return some source
  match ← outside (openInput (Raw.path file)) with
  | .error _ => return none
  | .ok _ => return some source

def openCommand (k : Tools) (name : Raw) : Step (Option Source) := do
  let n ← outside newSink
  flush
  let status ← outside do
    let act : Run (Except Errno Ending) := k.start false shellPath ["-c".toList, name]
    match ← withChannel 1 (.sink n) act with
    | .ok ending => return ending.status
    | .error _ => return 127
  let data := collected (← getThe Machine) n
  let c ← outside (textSource data)
  let d ← freshDescriptor
  outside (setDescriptor d (some c))
  return some { name, status, feed := { descriptor := d, files := [], isOpen := true } }

end Step

end LuaTree.Shell.Awk

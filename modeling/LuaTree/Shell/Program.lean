import LuaTree.Shell.Redirect
import LuaTree.Shell.Utility.Table

/-!
# Programs

What the programs of the machine do as processes: utilities, those that start other programs, and shells.
-/

namespace LuaTree.Shell

open Run

/-- What a shell of the extended dialect says of its version. -/
def extendedVersion : List String := ["5", "2", "21", "1", "release", "x86_64-pc-linux-gnu"]

/-- What a shell of the extended dialect says of itself and of the machine. -/
def extendedVariables : List (String × String) :=
  [("BASH", "/bin/bash"), ("BASH_VERSION", "5.2.21(1)-release"), ("EUID", "0"), ("HOSTNAME", Utility.machineName),
   ("HOSTTYPE", "x86_64"), ("MACHTYPE", "x86_64-pc-linux-gnu"), ("OPTERR", "1"), ("OSTYPE", "linux-gnu"),
   ("SHELL", "/bin/bash"), ("SHELLOPTS", "braceexpand:hashall:interactive-comments"), ("TERM", "dumb"),
   ("UID", "0")]

/-- Gives a shell the variables that every shell has. -/
def furnish : Run Unit := do
  let e ← environment
  let m ← get
  let physical? := (m.store.cwdText? e.cwd).toOption
  let given? : Option Raw := (e.bindings.get? "PWD".toList).bind fun v =>
    let isRight : Bool := match m.store.stat? e.cwd (Raw.path v.value) with
      | .ok (loc, _) => decide (loc = e.cwd)
      | .error _ => false
    if v.value.head? = some '/' ∧ isRight then some v.value else none
  if physical?.isNone then
    -- the shell does not know its name yet
    complainLine (if e.dialect = .plain then "sh: 0: getcwd() failed: No such file or directory".toList
      else ("shell-init: error retrieving current directory: getcwd: cannot access parent directories: "
        ++ "No such file or directory").toList)
  let pwd := given?.getD ((physical?.map Raw.ofPath).getD [])
  let set (x : String) (value : Raw) (exported : Bool := false) : Run Unit :=
    rebind x.toList fun v => { v with value, isSet := true, exported := v.exported || exported }
  set "PWD" pwd true
  set "PPID" (Raw.ofNat (((e.processes ++ e.ancestors).drop 1).headD 1))
  set "OPTIND" ['1']
  set "IFS" " \t\n".toList
  set "PS4" "+ ".toList
  match e.dialect with
  | .plain =>
    set "PS1" "$ ".toList
    set "PS2" "> ".toList
  | .extended =>
    for (x, value) in extendedVariables do
      set x value.toList
    rebind "BASH_VERSINFO".toList fun _ =>
      { Variable.ofList (extendedVersion.map String.toList) with isFixed := true }
    rebind "GROUPS".toList fun _ => .ofList [['0']]
    for x in ["EUID", "UID", "PPID"] do
      rebind x.toList fun v => { v with isFixed := true, isSum := true }
    let level := ((← varValue? "SHLVL".toList).bind Raw.int?).getD 0
    set "SHLVL" (Raw.ofInt (max 0 (level + 1))) true
    modifyEnvironment fun e => { e with lastWord := e.name }
  if (e.bindings.get? "PATH".toList).isNone then set "PATH" Exec.searchPath
  modifyEnvironment fun e => { e with here := Raw.path pwd }

def scriptOf (file : Raw) : Run (Except IoError Raw) := do
  match ← readFile (Raw.path file) with
  | .ok data => return .ok (Raw.ofBytes data)
  | .error e => return if e = .os .isDirectory then .ok [] else .error e

def shellProgram (run : Runner) (dialect : Dialect) (arguments : List Raw) : Run Nat := do
  modifyEnvironment fun e =>
    { e with dialect, line := 0, options := if dialect = .extended then ['h', 'B'] else [] }
  toEnd run do
    furnish
    let rest ← Options.read true (arguments.length + 1) false arguments
    let starting (name : Raw) (arguments : List Raw) : Run Unit :=
      modifyEnvironment fun e => { e with name, arguments, line := 1 }
    match rest.isScript, rest.arguments with
    | true, [] =>
      if dialect = .extended then
        complainLine ((← environment).name ++ ": -c: option requires an argument".toList)
        throw (.failed 2)
      else fatal "-c requires an argument".toList
    | true, script :: rest =>
      if dialect = .extended then Options.setLetter 'c' true
      starting (rest.headD (← environment).name) (rest.drop 1)
      runText run script true
    | false, arguments =>
      let e ← environment
      if e.options.contains 's' ∨ arguments = [] then
        Options.setLetter 's' true
        starting e.name arguments
        match ← readAll 0 with
        | .ok data => runText run (Raw.ofBytes data)
        | .error _ => return ()
      else
        let file := arguments.headD []
        match ← scriptOf file with
        | .ok script =>
          starting file (arguments.drop 1)
          runText run script
        | .error err =>
          if dialect = .extended then
            complainLine (e.name ++ ": ".toList ++ file ++ ": ".toList ++ (refusalText err).toList)
            throw (.failed (if err = .os .noEntry then 127 else 126))
          else
            fatal ("cannot open ".toList ++ file ++ ": ".toList ++ (openingText false err).toList)

/-- Does what a program of the machine does; programs may start others down to some depth. -/
def native (run : Runner) : (depth : Nat) → Exec.Loaded → Run Nat
  | 0, _ => throw .exhausted
  | depth + 1, loaded =>
    match String.ofList loaded.native with
    | "sh" | "dash" => shellProgram run .plain loaded.arguments
    | "bash" => shellProgram run .extended loaded.arguments
    | text =>
      match Utility.startingTable.lookup text, Utility.table.lookup text with
      | some utility, _ => utility (startedBy (native run depth)) loaded.name loaded.arguments
      | none, some utility => utility loaded.name loaded.arguments
      | none, none => return 127

/-- How deeply programs that are no shells may start others. -/
def startDepth : Nat := 32

/-- Where a shell searches for programs. -/
def Environment.path (e : Environment) : Raw := ((e.bindings.get? "PATH".toList).map Variable.value).getD []

/-- What a shell tells scripts by that say nothing of who is to read them. -/
def scriptTest : Dialect → Bytes → Bool
  | .plain => Exec.looksReadable
  | .extended => fun data => !((data.take 80).takeWhile (· ≠ 10)).contains 0

/-- What a shell says when there is no program with a name that it could run, and the status. -/
def unfound (dialect : Dialect) (name : Raw) (isDir isKnown : Bool) (e : Errno) : Raw × Nat :=
  match dialect with
  | .plain =>
    let isMissing := e = .noEntry ∨ e = .notDirectory
    if name = [] then (": Permission denied".toList, 127)
    else
      (name ++ ": ".toList ++ (if isMissing then "not found" else e.text).toList,
        if isMissing ∨ !(isKnown ∨ name.contains '/' ∨ e = .badExecutable) then 127
        else if e = .tooManyLinks ∨ e = .nameTooLong then 127 else 126)
  | .extended =>
    if !name.contains '/' ∧ (e = .noEntry ∨ isDir) then (name ++ ": command not found".toList, 127)
    else
      (name ++ ": ".toList ++ (if isDir then "Is a directory" else e.text).toList,
        if e = .noEntry then 127 else 126)

def whereIs? (name : Raw) : Run (Option Raw) := do
  let m ← get
  let e := m.environment
  let runs (p : Raw) : Bool := match m.store.stat? e.cwd (Raw.path p) with
    | .ok (_, f) => f.isFile && m.store.allows f .run
    | .error _ => false
  if name.contains '/' then
    return if e.dialect = .plain || runs name then some name else none
  return ((e.path.splitOn ':').map (Exec.candidate · name)).find? runs

/-- The variables that a program with a name is handed; the extended dialect adds where the program is. -/
def handedTo (name : Raw) : Run (FiniteMap Raw Variable) := do
  let e ← environment
  match e.dialect, ← whereIs? name with
  | .extended, some p => return e.exportsByRow.insert ['_'] { value := p, exported := true }
  | _, _ => return e.exportsByRow

/-- Runs the program with a name as a shell does, or complains that there is none; answers with its
status. -/
def program (run : Runner) (inPlace : Bool) (path name : Raw) (arguments : List Raw) : Run Nat := do
  let m ← get
  let e := m.environment
  match Exec.findAnyhow m.store e.cwd path name arguments (scriptTest e.dialect) with
  | .ok loaded =>
    if !inPlace then discard jobNumber
    let ending ← asProcess inPlace (← handedTo name) loaded (native run startDepth loaded)
    if !inPlace then noticeEnd
    match ending with
    | .exited n => return n
    | .killed n =>
      reportEnding n
      return 128 + n
  | .error err =>
    let (message, status) := unfound e.dialect name (m.store.isDir e.cwd (Raw.path name))
      (e.found.contains name) err
    complain message
    return status

end LuaTree.Shell

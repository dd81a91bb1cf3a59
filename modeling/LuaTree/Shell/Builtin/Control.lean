import LuaTree.Shell.Builtin.Basic
import LuaTree.Shell.Program

/-!
# Commands that steer the course of events
-/

namespace LuaTree.Shell.Builtin

open Run

/-- A status that is given, or else that of the last command. -/
def statusGiven : List Raw → Run Nat
  | [] => return (← environment).status
  | a :: _ => do
    if (← isExtended) ∧ (number? a).isNone then
      complainOwn (a ++ ": numeric argument required".toList)
      throw (.exit 2)
    if ← isExtended then return (((number? a).getD 0) % 256).toNat
    number a

/-- `exit`: ends the shell. -/
def exit : Builtin := fun _ arguments => do
  let e ← environment
  match arguments, e.before? with
  | [], some status => throw (.exit status)
  | _, _ => do
    let n ← statusGiven arguments
    throw (.exit (n % 256))

/-- `return`: ends a function or a script that is read in. -/
def leave : Builtin := fun _ arguments => do
  let n ← statusGiven arguments
  let e ← environment
  if e.dialect = .extended ∧ e.calls.isEmpty then
    complainOwn "can only \x60return' from a function or sourced script".toList
    return 2
  setStatus n
  throw (.leave n)

/-- How many loops are meant, at most all of them. -/
def levels (arguments : List Raw) : Run Nat := do
  let e ← environment
  match arguments with
  | [] => return min 1 e.loops
  | a :: _ =>
    let n ← number a
    if n = 0 then fatal ("Illegal number: ".toList ++ a)
    return min n e.loops

def complainNoLoop : Run Nat := do
  if ← isExtended then
    complainOwn "only meaningful in a \x60for', \x60while', or \x60until' loop".toList
  return 0

/-- `break`: ends loops. -/
def stop : Builtin := fun _ arguments => do
  let n ← levels arguments
  if n = 0 then complainNoLoop
  else
    setStatus 0
    throw (.stop n)

/-- `continue`: goes on with the next round of a loop. -/
def again : Builtin := fun _ arguments => do
  let n ← levels arguments
  if n = 0 then complainNoLoop
  else
    setStatus 0
    throw (.again n)

/-- `eval`: runs its arguments as a script. -/
def evaluate : Builtin := fun run arguments => do
  setStatus 0
  let e ← environment
  runFrom run (if e.dialect = .plain then 1 else e.line) ([' '].intercalate arguments)
  return (← environment).status

/-- Where the file is that is to be read in; one without a separator is searched for. -/
def sourcePath? (file : Raw) : Run (Option Raw) := do
  if file.contains '/' then return some file
  let m ← get
  let e := m.environment
  let found? := ((e.path.splitOn ':').map (Exec.candidate · file)).find? fun p =>
    m.store.isFile e.cwd (Raw.path p)
  return match found?, e.dialect with
    | some p, _ => some p
    | none, .plain => none
    | none, .extended => some file

/-- `.`: runs the script in a file as if it stood here. -/
def source : Builtin := fun run arguments => do
  let g ← given "" "" arguments
  let extended ← isExtended
  match g.operands with
  | [] =>
    if extended then
      complainOwn "filename argument required".toList
      complainUse
      return 2
    return 0
  | file :: rest =>
    match ← sourcePath? file with
    | none => fatal (file ++ ": not found".toList)
    | some path =>
      match ← scriptOf path with
      | .error e =>
        if extended then
          complain (file ++ ": ".toList ++ (refusalText e).toList)
          return 1
        else fatal ("cannot open ".toList ++ path ++ ": ".toList ++ (openingText false e).toList)
      | .ok script =>
        setStatus 0
        let restored (old new : Environment) : Environment :=
          { new with
            calls := old.calls, name := old.name
            arguments := if extended && !rest.isEmpty then old.arguments else new.arguments }
        let ended ← restoring restored do
          if extended then
            modifyEnvironment fun e =>
              { e with calls := path :: e.calls, command? := none
                       arguments := if rest.isEmpty then e.arguments else rest }
          else modifyEnvironment fun e => { e with command? := some path }
          attempt (runText run script)
        match ended with
        | .ok () => return (← environment).status
        | .error (.leave n) => return n
        | .error e => throw e

/-- `exec`: puts a program in the place of the shell. -/
def replace : Builtin := fun run arguments => do
  match arguments with
  | [] => return 0
  | name :: rest =>
    let m ← get
    let e := m.environment
    match Exec.findAnyhow m.store e.cwd e.path name rest (scriptTest e.dialect) with
    | .ok loaded =>
      let ending ← asProcess true (← handedTo name) loaded (native run startDepth loaded)
      modifyEnvironment fun e => { e with traps := .empty }
      throw (.exit ending.status)
    | .error err =>
      let isDir := m.store.isDir e.cwd (Raw.path name)
      match e.dialect with
      | .plain =>
        let (message, _) := unfound .plain name isDir (e.found.contains name) err
        let isMissing := err = .noEntry ∨ err = .notDirectory ∨ err = .tooManyLinks ∨ err = .nameTooLong
        fatal message (if isMissing then 127 else 126)
      | .extended =>
        if err = .noEntry then
          complainOwn (name ++ (if name.contains '/' then ": cannot execute: No such file or directory"
            else ": not found").toList)
        else complainOwn (name ++ ": cannot execute: ".toList ++ (if isDir then "Is a directory" else err.text).toList)
        throw (.exit (if err = .noEntry then 127 else 126))

/-- `times`: tells how much time was needed. -/
def times : Builtin := fun _ _ => do
  let line := "0m0.000000s 0m0.000000s\n".toList
  put (line ++ line)

end LuaTree.Shell.Builtin

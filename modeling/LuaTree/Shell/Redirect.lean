import LuaTree.Shell.Script

/-!
# Redirections

Where descriptors lead while a command runs. A redirection that fails is complained about, and what is
to be done then is left to the command.
-/

namespace LuaTree.Shell

open Run

/-- How the plain shell words a refusal to open a file. -/
def openingText (creating : Bool) : IoError → String
  | .os e =>
    if e = .noEntry ∨ e = .notDirectory then
      if creating then "Directory nonexistent" else "No such file"
    else e.text
  | e => refusalText e

def failedRedirection : Run Nat := return if ← isExtended then 1 else 2

/-- The file that the target of a redirection names; the extended dialect insists on a single one. -/
def targetFile? (run : Runner) (target : Word) : Run (Option Raw) := do
  if !(← isExtended) then return some (← Expand.text (innerOf run) target)
  match ← Expand.fields (innerOf run) [target] with
  | [file] => return some file
  | _ =>
    complain (Lexer.unquoted target ++ ": ambiguous redirect".toList)
    return none

/-- Opens a file for writing, unless one that is there is protected. -/
def openForOutput (way : Opening) (replace : Bool) (file : Raw) : Run (Except IoError Channel) := do
  let m ← get
  let isThere := way = .anew && !replace && m.environment.options.contains 'C'
    && m.store.isFile m.environment.cwd (Raw.path file)
  if isThere then return .error (.os .alreadyExists)
  openOutput way (Raw.path file)

/-- Carries out a redirection from or to a file, or complains and answers that it failed. -/
def redirectFile (run : Runner) (target : Word) (creating : Bool)
    (open? : Raw → Run (Except IoError Channel)) (use : Channel → Run Unit) : Run Bool := do
  match ← targetFile? run target with
  | none => return false
  | some file =>
    match ← open? file with
    | .ok c =>
      use c
      return true
    | .error e =>
      if ← isExtended then
        complain (file ++ ": ".toList ++
          (if e = .os .alreadyExists then "cannot overwrite existing file" else refusalText e).toList)
      else
        complain ("cannot ".toList ++ (if creating then "create " else "open ").toList ++ file
          ++ ": ".toList ++ (openingText creating e).toList)
      return false

/-- Makes a descriptor lead where another one leads. -/
def redirectSame (run : Runner) (r : Redirection) : Run Bool := do
  let target ← Expand.text (innerOf run) r.target
  let extended ← isExtended
  if target = ['-'] then
    setDescriptor r.descriptor none
    return true
  let isNumber := if extended then target.all Char.isDigit && target ≠ [] else
    match target with
    | [c] => c.isDigit
    | _ => false
  if isNumber then
    match ← channel? ((Raw.nat? target).getD 0) with
    | some c =>
      setDescriptor r.descriptor (some c)
      return true
    | none =>
      complain (target ++ ": Bad file descriptor".toList)
      return false
  else if extended then
    if r.descriptor = 1 then
      redirectFile run r.target true (openForOutput .anew false) fun c => do
        setDescriptor 1 (some c)
        setDescriptor 2 (some c)
    else
      complain (Lexer.unquoted r.target ++ ": ambiguous redirect".toList)
      return false
  else
    modifyEnvironment fun e => { e with line := e.lineRead }
    fatal "Syntax error: Bad fd number".toList

/-- Carries out a redirection, or complains and answers that it failed. -/
def redirect (run : Runner) (r : Redirection) : Run Bool := do
  let here (c : Channel) : Run Unit := setDescriptor r.descriptor (some c)
  match r.action with
  | .input => redirectFile run r.target false (fun file => openInput (Raw.path file)) here
  | .output => redirectFile run r.target true (openForOutput .anew false) here
  | .replace => redirectFile run r.target true (openForOutput .anew true) here
  | .append => redirectFile run r.target true (openForOutput .atEnd true) here
  | .both => redirectFile run r.target true (openForOutput .both true) here
  | .document =>
    here (← textSource (Raw.bytes (← Expand.text (innerOf run) r.target)))
    return true
  | .string =>
    here (← textSource (Raw.bytes ((← Expand.text (innerOf run) r.target) ++ ['\n'])))
    return true
  | .same => redirectSame run r
  | .withErrors append =>
    redirectFile run r.target true (openForOutput (if append then .atEnd else .anew) append) fun c => do
      setDescriptor 1 (some c)
      setDescriptor 2 (some c)

/-- Carries out redirections up to the first one that fails. -/
def redirectAll (run : Runner) : List Redirection → Run Bool
  | [] => return true
  | r :: rest => do
    if ← redirect run r then redirectAll run rest else return false

end LuaTree.Shell

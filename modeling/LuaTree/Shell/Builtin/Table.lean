import LuaTree.Shell.Builtin.Control
import LuaTree.Shell.Builtin.Directory
import LuaTree.Shell.Builtin.Jobs
import LuaTree.Shell.Builtin.Naming
import LuaTree.Shell.Builtin.Output

/-!
# The commands of the shell by name
-/

namespace LuaTree.Shell.Builtin

open Run

def succeed : Builtin := fun _ _ => return 0

def failing : Builtin := fun _ _ => return 1

/-- `ulimit`: shows a limit, of which there is none. -/
def limit : Builtin := fun _ arguments => do
  let g ← given "HSacdflmnpstvrw" "" arguments
  if g.operands = [] then put "unlimited\n".toList else return 0

/-- A command that needs jobs under control, which there are only in front of a terminal. -/
def controlled : Builtin := fun _ _ => do
  if ← isExtended then
    complainOwn "no job control".toList
    return 1
  else fatal "No current job".toList

/-- The commands of both dialects. -/
def table : List (String × Builtin) :=
  [(":", succeed), ("true", succeed), ("false", failing), (".", source), ("[", test true),
   ("test", test false), ("alias", setAliases), ("bg", controlled), ("break", stop), ("cd", changeDirectory),
   ("command", command), ("continue", again), ("echo", echo), ("eval", evaluate), ("exec", replace),
   ("exit", exit), ("export", exportVariables), ("fg", controlled), ("getopts", nextOptionOf),
   ("hash", remembered), ("jobs", jobs), ("kill", kill), ("local", localVariables), ("printf", printf),
   ("pwd", workingDirectory), ("read", readLine), ("readonly", fixVariables), ("return", leave), ("set", set),
   ("shift", shift), ("times", times), ("trap", trap), ("type", describe), ("ulimit", limit),
   ("umask", maskPermissions), ("unalias", removeAliases), ("unset", unset), ("wait", wait)]

def further : Dialect → List (String × Builtin)
  | .plain => [("chdir", changeDirectory)]
  | .extended =>
    [("declare", properties), ("typeset", properties), ("let", sums), ("mapfile", readList),
     ("readarray", readList), ("shopt", succeed), ("source", source), ("enable", succeed),
     ("disown", succeed)]

def find? (dialect : Dialect) (name : Raw) : Option Builtin :=
  let text := String.ofList name
  match table.lookup text with
  | some b => some b
  | none => (further dialect).lookup text

/-- Calls a command of the shell; mistakes end it, and those of a special one end the shell. -/
def call (run : Runner) (special : Bool) (name : Raw) (b : Builtin) (arguments : List Raw) : Run Nat := do
  let ended ← restoring (fun old new => { new with command? := old.command? }) do
    modifyEnvironment fun e => { e with command? := some name }
    attempt (b run arguments)
  match ended with
  | .ok n => return n
  | .error (.failed n) => if special then throw (.failed n) else return n
  | .error e => throw e

end LuaTree.Shell.Builtin

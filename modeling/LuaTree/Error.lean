import LuaTree.Store.Errno

/-!
# What can go wrong

`Error` lists every failure of a conversion by its cause; `Error.message` is the only place where the
wording is fixed. All but two of them concern one work item and leave the rest of the batch alone
(`isRecoverable`).
-/

namespace LuaTree

/-- What the walk through a directory tree skips, and why. -/
inductive WalkFault where
  | unreadable (path : PathText) (cause : IoError) -- an entry that could not be opened or followed
  | loop (path ancestor : PathText) -- a link to a directory that the walk is already inside of
  deriving DecidableEq, Inhabited

namespace WalkFault

def path : WalkFault → PathText
  | .unreadable p _ => p
  | .loop p _ => p

def message : WalkFault → String
  | .unreadable p cause =>
    "IO error for operation on " ++ String.ofList p ++ ": " ++ cause.message
  | .loop p ancestor =>
    "File system loop found: " ++ String.ofList p ++ " points to an ancestor "
      ++ String.ofList ancestor

end WalkFault

/-- Everything that a finished decompiler process left behind. -/
structure ProcessOutput where
  stdout : Bytes -- what it wrote to its standard output
  stderr : Bytes -- what it wrote to its standard error
  exit : Option Int -- its exit code; none when a signal ended it
  deriving DecidableEq, Inhabited

namespace ProcessOutput

/-- Whether the process reported success: only exit code 0 does. -/
def success (o : ProcessOutput) : Bool := o.exit = some 0

def ending (o : ProcessOutput) : String :=
  match o.exit with
  | some code => "exit code " ++ toString code
  | none => "termination by signal"

end ProcessOutput

/-- Why an input, or one of its files, could not be converted. -/
inductive Error where
  | invalidInput (path : PathText) -- the input is neither a file nor a directory
  | unknownExecutable (cause : IoError) -- the program does not know where it is installed
  | walk (fault : WalkFault) -- an entry of the tree was skipped
  | fileOpen (path : PathText) (cause : IoError) -- a file could not be opened
  | fileRead (path : PathText) (cause : IoError) -- a file could not be read
  | fileWrite (path : PathText) (cause : IoError) -- an output file could not be written
  | createDir (path : PathText) (cause : IoError) -- a directory could not be created
  | copy (source target : PathText) (cause : IoError) -- a file could not be copied
  | decompilerSpawn (program : PathText) (cause : IoError) -- the decompiler could not be started
  -- the output of the decompiler could not be collected
  | decompilerIo (path : PathText) (cause : IoError)
  | decompilerFailed (path : PathText) (output : ProcessOutput)
  deriving DecidableEq, Inhabited

namespace Error

def message : Error → String
  | .invalidInput p => "input path is neither a file nor a directory: " ++ String.ofList p
  | .unknownExecutable c => "failed to locate the running executable: " ++ c.message
  | .walk f => "failed to walk '" ++ String.ofList f.path ++ "': " ++ f.message
  | .fileOpen p c => "failed to open file '" ++ String.ofList p ++ "': " ++ c.message
  | .fileRead p c => "failed to read file '" ++ String.ofList p ++ "': " ++ c.message
  | .fileWrite p c => "failed to write output file '" ++ String.ofList p ++ "': " ++ c.message
  | .createDir p c => "failed to create directory '" ++ String.ofList p ++ "': " ++ c.message
  | .copy p q c =>
    "failed to copy '" ++ String.ofList p ++ "' to '" ++ String.ofList q ++ "': " ++ c.message
  | .decompilerSpawn p c =>
    "failed to launch decompiler '" ++ String.ofList p ++ "': " ++ c.message
  | .decompilerIo p c =>
    "failed to collect decompiler output for '" ++ String.ofList p ++ "': " ++ c.message
  | .decompilerFailed p o =>
    "decompiler failed on '" ++ String.ofList p ++ "' with " ++ o.ending

/-- The text of the failed operation behind an error. -/
def cause? : Error → Option String
  | .invalidInput _ | .decompilerFailed _ _ => none
  | .walk f => some f.message
  | .unknownExecutable c | .fileOpen _ c | .fileRead _ c | .fileWrite _ c | .createDir _ c
  | .copy _ _ c | .decompilerSpawn _ c | .decompilerIo _ c => some c.message

/-- Whether an error concerns one work item only. -/
def isRecoverable : Error → Bool
  | .invalidInput _ | .unknownExecutable _ => false
  | _ => true

/-- What the decompiler printed before it failed. -/
def diagnostics? : Error → Option (Bytes × Bytes)
  | .decompilerFailed _ o => some (o.stdout, o.stderr)
  | _ => none

end Error

end LuaTree

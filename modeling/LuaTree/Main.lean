import LuaTree.Cli.Run
import LuaTree.Exec.Launch

/-!
# The program

The command line around `Cli.run`. The names of the entries below the working directory come on the standard
input, one on each line, those of directories with a separator at the end; their contents are read from
disk. What the run has changed is written back, and nothing else is touched.

Runtimes run on the machine of `Exec`, so the tree can bring its own as scripts.
-/

namespace LuaTree.Program

/-- The location that an absolute path without links or dots spells. -/
def locationOf (p : String) : Location := (PathText.segments p.toList).filter (· ≠ [])

/-- A store that holds the machine's programs and the directories on the way to a location. -/
def ground (cwd : Location) : Store :=
  (List.range cwd.length).foldl (fun s k =>
    if (s.entry? (cwd.take (k + 1))).isSome then s else s.put (cwd.take (k + 1)) (.dir 0o755))
    (Exec.withTools .empty)

/-- Puts an entry of the working directory into a store; files bring their contents. -/
def enter (s : Store) (cwd : Location) (name : String) (data : Bytes) : Store :=
  let p := name.toList
  if p.getLast? = some '/' then (s.makeDirs cwd p).2
  else
    let s := (ensureParent s cwd p).2
    match s.openWrite cwd p 0o755 with
    | .ok (h, s) => s.append h data
    | .error _ => s

/-- What is new or has changed below a location, as paths from there with their views. -/
def changes (cwd : Location) (old new : Store) : List (String × View) :=
  (new.tree.sub cwd).entries.filterMap fun (way, _) =>
    match new.view (cwd ++ way) with
    | some v =>
      if old.view (cwd ++ way) = some v then none
      else some ("/".intercalate (way.map String.ofList), v)
    | none => none

/-- Reads the names of the entries, and the contents of the files. -/
partial def load (names : IO.FS.Stream) (cwd : Location) (s : Store) : IO Store := do
  let line ← names.getLine
  if line.isEmpty then return s
  let name := line.trimAsciiEnd.copy
  if name.isEmpty then load names cwd s
  else
    let data ← if name.endsWith "/" then pure ⟨#[]⟩ else IO.FS.readBinFile name
    load names cwd (enter s cwd name data.toList)

/-- Writes what has changed to disk, directories first. -/
def save (changed : List (String × View)) : IO Unit := do
  for (path, v) in changed do
    match v with
    | .dir _ => IO.FS.createDirAll path
    | _ => pure ()
  for (path, v) in changed do
    match v with
    | .file data _ => IO.FS.writeBinFile path ⟨data.toArray⟩
    | _ => pure ()

end LuaTree.Program

open LuaTree in
/-- Runs the program on the working directory. -/
def main (arguments : List String) : IO UInt32 := do
  let cwd := Program.locationOf (← IO.currentDir).toString
  let host : Cli.Host :=
    { cwd, executable := (← IO.appPath).toString.toList, launch := Exec.launch }
  let coloured := ((← IO.getEnv "NO_COLOR").getD "").isEmpty
  let arguments := arguments.map String.toList
  -- arguments that ask for no conversion need no tree
  let ground := Program.ground cwd
  let before ←
    match Arguments.parse arguments with
    | .ok _ => Program.load (← IO.getStdin) cwd ground
    | .error _ => pure ground
  let outcome := Cli.run host before arguments coloured
  Program.save (Program.changes cwd before outcome.store)
  IO.print outcome.stdout
  IO.eprint outcome.stderr
  return outcome.exit.toUInt32

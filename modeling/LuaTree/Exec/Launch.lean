import LuaTree.Decompiler
import LuaTree.Shell.Evaluate
import LuaTree.Shell.Schedule

/-!
# Starting processes

`launch` is a launcher in a store alone: the program is found, and it runs on the machine of this
library, which knows shells and utilities. Nothing outside of the store takes part, so a whole
conversion with a script as its runtime is a function.

The order of the checks is that of an operating system: texts that cannot be handed over, the directory,
then the program.
-/

namespace LuaTree.Exec

open Shell

/-- The names of all programs of the machine. -/
def natives : List String :=
  ["sh", "dash", "bash"] ++ Utility.startingTable.map Prod.fst ++ Utility.table.map Prod.fst

def place (names : List String) : Location := names.map String.toList

/-- The directories of the machine, with their permission bits; most of them belong to somebody else. -/
def directories : List (List String × Nat) :=
  [(["dev"], 0o555), (["dev", "fd"], 0o555), (["dev", "shm"], 0o1777), (["etc"], 0o555), (["home"], 0o555),
   (["mnt"], 0o555), (["opt"], 0o555), (["proc"], 0o555), (["root"], 0o755), (["run"], 0o555),
   (["srv"], 0o555), (["sys"], 0o555), (["tmp"], 0o1777), (["usr"], 0o555), (["usr", "bin"], 0o555),
   (["usr", "lib"], 0o555), (["usr", "local"], 0o555), (["usr", "local", "bin"], 0o555),
   (["usr", "sbin"], 0o555), (["usr", "share"], 0o555), (["var"], 0o555), (["var", "tmp"], 0o1777)]

def devices : List (String × Device) :=
  [("null", .null), ("zero", .zero), ("full", .full), ("tty", .terminal), ("random", .zero),
   ("urandom", .zero), ("stdin", .descriptor 0), ("stdout", .descriptor 1), ("stderr", .descriptor 2)]

def namedDescriptors : Nat := 64

def users : String := "root:x:0:0:root:/root:/bin/bash\n"

/-- A store with the machine's devices and programs in their places. -/
def withTools (s : Store) : Store :=
  let s := directories.foldl (fun s (names, mode) => s.put (place names) (.dir mode)) s
  let s := s.put (place ["bin"]) (.link "usr/bin".toList)
  let s := s.put (place ["lib"]) (.link "usr/lib".toList)
  let s := s.put (place ["sbin"]) (.link "usr/sbin".toList)
  let s := devices.foldl (fun s (name, d) => s.put (place ["dev", name]) (.device d)) s
  let s := (List.range namedDescriptors).foldl (fun s n =>
    s.put (place ["dev", "fd"] ++ [Nat.toDigits 10 n]) (.device (.descriptor n))) s
  let s := s.putFile (place ["etc", "passwd"]) ⟨Raw.bytes users.toList, 0o644⟩
  natives.foldl (fun s n =>
    s.putFile (place ["usr", "bin", n]) ⟨nativeImage n.toList, 0o755⟩) s

/-- How many steps deep commands may run within commands. -/
def depth : Nat := 30000

def firstProcess : Nat := 4242

def firstEnvironment (s : Store) (cwd : Location) (loaded : Loaded) : Environment :=
  let exported (v : Raw) : Variable := { value := v, exported := true }
  { name := loaded.name
    arguments := loaded.arguments
    descriptors :=
      ((FiniteMap.empty.insert 0 (.file 0)).insert 1 (.sink 1)).insert 2 (.sink 2)
    bindings :=
      (FiniteMap.empty.insert "PATH".toList (exported searchPath)).insert "HOME".toList
        (exported "/root".toList)
    cwd, here := cwd.text, mask := s.umask, processes := [firstProcess, 1], self := firstProcess }

/-- What a program that is ready to run leaves behind. -/
def execute (s : Store) (cwd : Location) (loaded : Loaded) : ProcessOutput × Store :=
  let run := Command.run depth
  let machine : Machine :=
    { store := s
      files := FiniteMap.empty.insert 0 { handle := .device .null, reads := true }
      environment := firstEnvironment s cwd loaded }
  let (ending?, m) :=
    Schedule.run (fun b => toEnd run (run b.command)) [1, 2] (native run startDepth loaded) machine
  let exit : Option Int :=
    match ending? with
    | some (.exited n) => some n
    | _ => none
  (⟨Run.collected m 1, Run.collected m 2, exit⟩, m.store)

/-- Whether a text can be handed to a process. -/
def isClean (t : List Char) : Bool := !t.contains '\x00'

/-- Starts a process in a store and waits for its end. -/
def launch : Launcher := fun s cwd i =>
  if !(isClean i.program && i.arguments.all isClean && isClean i.directory) then
    (.error (.refused "nul byte found in provided data"), s)
  else
    match s.stat? cwd i.directory with
    | .error e => (.error e, s)
    | .ok (dir, .dir _) =>
      match find s dir searchPath (Raw.ofPath i.program) (i.arguments.map Raw.ofPath) with
      | .error e => (.error (.os e), s)
      | .ok loaded =>
        let (output, s) := execute s dir loaded
        (.ok output, s)
    | .ok _ => (.error (.os .notDirectory), s)

end LuaTree.Exec

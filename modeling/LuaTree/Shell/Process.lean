import LuaTree.Exec.Image
import LuaTree.Shell.Utility.Basic

/-!
# Programs as processes

A program that is started runs as a process of its own, or in the place of the process that starts it; it
is handed the exported variables, the open descriptors and little else.
-/

namespace LuaTree.Shell

open Run

def isAlive (m : Machine) (process : Nat) : Bool :=
  m.environment.processes.contains process
    || m.births.any (fun b => b.process = process)
    || m.others.any (fun e => e.processes.contains process)

/-- Sends a signal to a process; tells whether there is such a process. -/
def send (process signal : Nat) : Run Bool := do
  let m ← get
  if !isAlive m process then return false
  if signal ≠ 0 then
    if m.environment.processes.contains process then
      modifyEnvironment fun e => { e with arrived := e.arrived ++ [(process, signal)] }
      surviving
    else set { m with signals := m.signals ++ [(process, signal)] }
    spend roundTime
  return true

/-- A way to start the program with a name: in the place of the process that runs, or as a process of its
own. -/
abbrev Starter := (inPlace : Bool) → Raw → List Raw → Run (Except Errno Ending)

namespace Environment

def exports (e : Environment) : FiniteMap Raw Variable :=
  ⟨e.bindings.entries.filter fun p => p.2.exported && p.2.isSet,
    e.bindings.distinct.sublist (List.filter_sublist.map _)⟩

/-- The row of the table of variables in which a shell keeps a name. -/
def tableRow (name : Raw) : Nat :=
  (name.foldl (fun n c => n + c.toNat) ((name.headD '\x00').toNat * 16)) % 39

/-- The same in the order in which a shell hands them over. -/
def exportsByRow (e : Environment) : FiniteMap Raw Variable :=
  let rows := e.exports.entries.reverse.mergeSort fun a b => tableRow a.1 ≤ tableRow b.1
  rows.foldl (fun vs (x, v) => vs.insert x v) .empty

/-- What a program is handed that takes a place in the row of processes. -/
def handed (e : Environment) (number : Nat) (bindings : FiniteMap Raw Variable) (loaded : Exec.Loaded) :
    Environment :=
  { name := loaded.name
    arguments := loaded.arguments
    bindings
    descriptors := e.descriptors
    kept := if e.givesPlace then e.kept else e.descriptors :: e.kept
    cwd := e.cwd
    here := e.here
    mask := e.mask
    niceness := e.niceness
    traps := ⟨e.traps.entries.filter fun p => p.2.isEmpty,
      e.traps.distinct.sublist (List.filter_sublist.map _)⟩
    arrived := e.arrived
    processes := number :: (if e.givesPlace then e.processes.drop 1 else e.processes)
    ancestors := e.ancestors
    self := number }

end Environment

/-- Runs a program that has been found, with some variables; answers with how it ended. -/
def asProcess (inPlace : Bool) (bindings : FiniteMap Raw Variable) (loaded : Exec.Loaded) (act : Run Nat) :
    Run Ending := do
  let e ← environment
  let number ← if inPlace then pure e.process else do
    spend forkTime
    fresh
  let ended ← restoring (fun old _ => old) do
    modifyEnvironment fun e => ({ e with givesPlace := inPlace }).handed number bindings loaded
    attempt do
      spend startTime
      act
  match ended with
  | .ok n | .error (.exit n) => return .exited n
  | .error (.killed p n) => if p = number ∧ !inPlace then return .killed n else throw (.killed p n)
  | .error e => throw e

/-- Where programs are searched for when nothing says where. -/
def usualPath : Raw := "/bin:/usr/bin".toList

/-- Starts the program with a name; `run` runs one that has been found. -/
def startedBy (run : Exec.Loaded → Run Nat) : Starter := fun inPlace name arguments => do
  let m ← get
  let e := m.environment
  let path := ((e.bindings.get? "PATH".toList).map Variable.value).getD usualPath
  match Exec.findAnyhow m.store e.cwd path name arguments with
  | .ok loaded => return .ok (← asProcess inPlace e.exports loaded (run loaded))
  | .error e => return .error e

end LuaTree.Shell

import LuaTree.Shell.Expand
import LuaTree.Shell.Parser

/-!
# Scripts

A script runs statement by statement, so a mistake further down does not keep what stands above it from
having its effect. What runs in a copy of the shell leaves its status behind, and what it has written; the
output of a script is what such a copy writes.

How a single command runs is a parameter here (`Runner`).
-/

namespace LuaTree.Shell

open Run

/-- A way to run commands. -/
abbrev Runner := Command → Run Unit

/-- Runs the statements of a script; `final` tells whether the shell ends with it. -/
def statements (run : Runner) (final : Bool) : (fuel : Nat) → Source → Run Unit
  | 0, _ => return ()
  | fuel + 1, source => do
    let e ← environment
    let before := source.rest
    let echo (rest : Raw) : Run Unit := do
      if e.options.contains 'v' then
        discard (writeText 2 (before.take (before.length - rest.length)))
    match nextStatement { source with aliases := e.aliases } with
    | .error mistake =>
      echo []
      mistaken mistake
    | .ok none => echo []
    | .ok (some (c, source)) =>
      echo source.rest
      modifyEnvironment fun e =>
        { e with lineRead := source.line, isFinal := final && source.rest.isEmpty }
      if e.options.contains 'n' then statements run final fuel source
      else
        match ← attempt (run c) with
        | .ok () => statements run final fuel source
        | .error .givenUp => statements run final fuel source
        | .error error => throw error

/-- Runs a script whose first line has the given number. -/
def runFrom (run : Runner) (line : Nat) (script : Raw) (final : Bool := false) : Run Unit := do
  statements run final (script.length + 2) { rest := script, line, dialect := (← environment).dialect }

def runText (run : Runner) (script : Raw) (final : Bool := false) : Run Unit := runFrom run 1 script final

/-- Does what is to be done for the signals that have arrived. -/
def attend (run : Runner) : Run Unit := do
  let e ← environment
  if e.arrived.isEmpty then return ()
  surviving
  modifyEnvironment fun e => { e with arrived := e.arrived.filter fun p => p.1 ≠ e.process }
  for (p, signal) in e.arrived do
    if p = e.process then
      match e.trap? signal with
      | none | some [] => pure ()
      | some script =>
        restoring (fun old new => { new with before? := old.before? }) do
          modifyEnvironment fun e => { e with before? := some e.status }
          runText run script
        setStatus e.status

/-- Runs something to its end as a shell of its own, and what the shell does at its end; answers with its
status. -/
def toEnd (run : Runner) (act : Run Unit) : Run Nat := do
  let ended ← attempt (do act; attend run)
  let status ← match ended with
    | .ok () | .error (.stop _) | .error (.again _) | .error .givenUp => pure (← environment).status
    | .error (.exit n) | .error (.leave n) | .error (.failed n) => pure n
    | .error e => throw e
  match (← environment).traps.get? "EXIT".toList with
  | some script =>
    modifyEnvironment fun e =>
      { e with status, before? := some status, traps := e.traps.erase "EXIT".toList }
    match ← attempt (runText run script) with
    | .error (.exit n) | .error (.failed n) => return n
    | .error (.killed p n) => throw (.killed p n)
    | .error .exhausted => throw .exhausted
    | _ => return status
  | none => return status

/-- Takes notice of how processes have ended that were started aside. -/
def noticeEndings : Run Unit :=
  modify fun m =>
    let jobs := m.environment.jobs.map fun j => { j with ending? := j.ending? <|> m.endings.get? j.process }
    { m with environment := { m.environment with jobs } }

/-- Takes notice of the end of a process that was waited for at once. -/
def noticeEnd : Run Unit := do
  noticeEndings
  modifyEnvironment fun e =>
    if e.hears childSignal then { e with arrived := e.arrived ++ [(e.process, childSignal)] } else e

/-- Finds a number for another job; the first one that is free, or whose process has been waited for. -/
def jobNumber : Run Nat := do
  let e ← environment
  let isTaken (n : Nat) : Bool := e.jobs.any fun j => j.number = n && !j.isSettled
  let n := (((List.range (e.jobs.length + 1)).map (· + 1)).find? (!isTaken ·)).getD (e.jobs.length + 1)
  modifyEnvironment fun e => { e with jobs := e.jobs.filter (·.number ≠ n) }
  return n

/-- Says how a process ended that a signal has ended, unless everybody knows. -/
def reportEnding (signal : Nat) : Run Unit := do
  if Signal.ending signal ≠ "" then
    if ← isExtended then return ()
    complainLine (Signal.ending signal).toList

/-- The status of a process that has ended; other ways of leaving the course of events go on. -/
def statusOf (process : Nat) (ended : Except Interruption Nat) : Run Nat := do
  noticeEnd
  match ended with
  | .ok n => return n
  | .error (.killed p n) =>
    if p ≠ process then throw (.killed p n)
    reportEnding n
    return 128 + n
  | .error e => throw e

/-- Runs something in a copy of the environment, of which only the status is kept. -/
def inCopy (run : Runner) (act : Run Unit) : Run Nat := do
  let number ← fresh
  discard jobNumber
  spend forkTime
  let ended ← restoring (fun old _ => old) do
    modifyEnvironment fun e => { e.copied number with kept := e.descriptors :: e.kept }
    attempt (toEnd run act)
  statusOf number ended

/-- Starts something aside; answers with the number of its process. -/
def startAside (command : Command) (change : Environment → Environment) : Run Nat := do
  let number ← fresh
  modify fun m =>
    let birth : Birth :=
      { process := number, command
        environment := change { m.environment.copied number with
          kept := [], arrived := [], processes := [number]
          ancestors := m.environment.processes ++ m.environment.ancestors } }
    { m with births := birth :: m.births }
  spend forkTime
  return number

/-- Waits until a process has ended; answers with how. -/
def endingOf (process : Nat) : (fuel : Nat) → Run Ending
  | 0 => throw .exhausted
  | fuel + 1 => do
    match (← get).endings.get? process with
    | some ending => return ending
    | none =>
      pause (.process process)
      endingOf process fuel

/-- The output of a script, without the ends of lines at its end. -/
def outputOf (run : Runner) (line : Nat) (script : Raw) : Run Raw := do
  let k ← newSink
  let status ← inCopy run do
    setDescriptor 1 (some (.sink k))
    modifyEnvironment fun e => { e with tested := false }
    runFrom run line script true
  modifyEnvironment fun e =>
    { e with substituted := status, status := if e.dialect = .extended then status else e.status }
  if heldElsewhere (← get) (.sink k) then pause (.silence k)
  let m ← get
  set { m with sinks := m.sinks.erase k }
  let t := (Raw.ofBytes (collected m k)).filter (· ≠ '\x00')
  return (t.reverse.dropWhile (· = '\n')).reverse

/-- A pipe between the shell and a script, which the shell can use under the name that is the answer. -/
def processName (reads : Bool) (line : Nat) (script : Raw) : Run Raw := do
  let pipe ← fresh
  let mine : Channel := if reads then .reader pipe else .writer pipe
  let others : Channel := if reads then .writer pipe else .reader pipe
  let taken := (← environment).descriptors
  let n := (([63, 62, 61, 60].find? fun n => (taken.get? n).isNone).getD 63)
  let words : List Word := [[.text false "eval".toList], [.text true script]]
  discard (startAside (.simple line [] words []) fun e =>
    { e with descriptors := e.descriptors.insert (if reads then 1 else 0) others })
  setDescriptor n (some mine)
  return "/dev/fd/".toList ++ Raw.ofNat n

def innerOf (run : Runner) : Inner := { output := outputOf run, process := processName }

end LuaTree.Shell

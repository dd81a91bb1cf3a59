import LuaTree.Shell.Call
import LuaTree.Shell.Question

/-!
# Running commands

`step` runs one command, given a way to run the commands inside of it, and `Command.run` closes the circle
with fuel, so that nothing else recurses on commands. The status of the last command is part of the
environment.

A command that nothing follows is marked as final: its process may give its place to the program that the
command calls. Failure ends the shell if that is asked for, unless it is being asked about.
-/

namespace LuaTree.Shell

open Run

/-- Ends the shell if a command has failed and that is asked for. -/
def endOnFailure : Run Unit := do
  let e ← environment
  if e.status ≠ 0 ∧ e.options.contains 'e' ∧ !e.tested then throw (.exit e.status)

/-- Runs something whose failure is asked about. -/
def asTested (act : Run Unit) : Run Unit :=
  restoring (fun old new => { new with tested := old.tested }) do
    modifyEnvironment fun e => { e with tested := true }
    act

def runLast (run : Runner) (final : Bool) (c : Command) : Run Unit := do
  if final then modifyEnvironment fun e => { e with isFinal := true }
  run c

/-- Remembers the status as that of a pipeline of one part. -/
def noteStatus : Run Unit := modifyEnvironment fun e => { e with statuses := [e.status] }

def atLine (line : Nat) : Run Unit := modifyEnvironment fun e => { e with line }

/-! ## Loops -/

/-- How a round of a loop has ended. -/
inductive Round where
  | goesOn
  | over -- the condition ends the loop
  | left
  deriving DecidableEq

def roundOf (act : Run Round) : Run Round := do
  let one := restoring (fun old new => { new with loops := old.loops }) do
    modifyEnvironment fun e => { e with loops := e.loops + 1 }
    act
  match ← attempt one with
  | .ok r => return r
  | .error (.stop n) => if n ≤ 1 then return .left else throw (.stop (n - 1))
  | .error (.again n) => if n ≤ 1 then return .goesOn else throw (.again (n - 1))
  | .error e => throw e

/-- Runs rounds of a loop; at its end the status is that of the last round. -/
def loopRounds (round : Run Round) : (fuel : Nat) → (status : Nat) → Run Unit
  | 0, _ => throw .exhausted
  | fuel + 1, status => do
    match ← roundOf round with
    | .over => setStatus status
    | .left => return ()
    | .goesOn =>
      let status := (← environment).status
      spend roundTime
      loopRounds round fuel status

def conditionLoop (run : Runner) (wanted : Bool) (condition body : Command) : Run Unit :=
  loopRounds (do
    asTested (run condition)
    if decide ((← environment).status = 0) ≠ wanted then return .over
    setStatus 0
    run body
    return .goesOn) rounds 0

/-- Runs the body of a loop for one value after the other. -/
def eachValue (run : Runner) (name : Raw) (body : Command) : List Raw → Run Unit
  | [] => return ()
  | v :: vs => do
    setVariable name v
    let round ← roundOf do
      run body
      return .goesOn
    match round with
    | .goesOn =>
      spend roundTime
      eachValue run name body vs
    | _ => return ()

/-- Works out a sum in which parameters are put in first. -/
def sumOf (run : Runner) (expression : Raw) : Run Int := do
  let e ← environment
  match Lexer.wordOf e.dialect .document e.line expression with
  | .ok w => Arithmetic.evaluate ((← Expand.text (innerOf run) w).filter (· ≠ '"'))
  | .error mistake => mistaken mistake

def countedLoop (run : Runner) (first goOn next : Raw) (body : Command) : Run Unit := do
  let isBlank (t : Raw) : Bool := t.all Char.isWhitespace
  if !isBlank first then discard (sumOf run first)
  let isAgain (begun : Bool) : Run Round := do
    if begun ∧ !isBlank next then discard (sumOf run next)
    if !isBlank goOn ∧ (← sumOf run goOn) = 0 then return .over
    run body
    return .goesOn
  setStatus 0
  match ← roundOf (isAgain false) with
  | .goesOn =>
    let status := (← environment).status
    loopRounds (isAgain true) rounds status
  | .over => setStatus 0
  | .left => return ()

/-! ## Decisions -/

/-- Runs the body of the first arm that accepts a text, and those that follow it when asked to. -/
def runArms (run : Runner) (final : Bool) (subject : Raw) : (fallsIn : Bool) → Command → Run Unit
  | fallsIn, .arm patterns body ending next => do
    let mut accepted := fallsIn
    for p in patterns do
      if !accepted then
        accepted := Pattern.accepts (← Expand.pattern (innerOf run) p) subject
    if !accepted then runArms run final subject false next
    else
      let isLast := ending ≠ ";&".toList && ending ≠ ";;&".toList
      match body with
      | .nothing => pure ()
      | body => runLast run (final && isLast) body
      if !isLast then runArms run final subject (ending = ";&".toList) next
  | _, _ => return ()

/-! ## Pipelines and processes aside -/

/-- Starts the parts of a pipeline one after the other; `source?` is where the first one reads. -/
def startStages (source? : Option Channel) : List (Bool × Command) → Run (List Nat)
  | [] => return []
  | (all, c) :: rest => do
    let pipe? ← if rest = [] then pure none else some <$> fresh
    let change (e : Environment) : Environment :=
      let ds := match source? with
        | some c => e.descriptors.insert 0 c
        | none => e.descriptors
      let ds := match pipe? with
        | some pipe =>
          let ds := ds.insert 1 (.writer pipe)
          if all then ds.insert 2 (.writer pipe) else ds
        | none => ds
      { e with descriptors := ds, isFinal := true }
    -- the reading end is held until somebody else has it
    let hold (e : Environment) : Environment :=
      match pipe? with
      | some pipe => { e with kept := FiniteMap.empty.insert 0 (.reader pipe) :: e.kept }
      | none => e
    let first ← restoring (fun old new => { new with kept := old.kept }) do
      modifyEnvironment hold
      startAside c change
    let others ← restoring (fun old new => { new with kept := old.kept }) do
      modifyEnvironment hold
      startStages (pipe?.map .reader) rest
    return first :: others

def runPipeline (c : Command) : Run Unit := do
  discard jobNumber
  let processes ← startStages none c.stages
  let statuses ← processes.mapM fun p => do
    let ending ← endingOf p rounds
    match ending with
    | .killed n => reportEnding n
    | .exited _ => pure ()
    return ending.status
  noticeEndings
  let e ← environment
  let last := statuses.getLastD 0
  let status := if e.named.contains "pipefail" then ((statuses.reverse.find? (· ≠ 0)).getD 0) else last
  modifyEnvironment fun e => { e with status, statuses }

def runAside (c : Command) : Run Unit := do
  let null ← opened { handle := .device .null, reads := true }
  let number ← startAside c fun e =>
    { e with
      descriptors := e.descriptors.insert 0 null, tested := false, isFinal := true
      traps := (e.traps.insert ['2'] []).insert ['3'] [] }
  let job : Job := { number := ← jobNumber, process := number }
  modifyEnvironment fun e => { e with aside? := some number, jobs := job :: e.jobs, status := 0 }

/-- Writes how long something took. -/
def tellTime (spent : Nat) : Run Unit := do
  let ms := spent / 1000
  let fraction := Raw.ofNat (ms % 1000)
  let real := Raw.ofNat (ms / 60000) ++ 'm' :: Raw.ofNat (ms / 1000 % 60) ++ '.'
    :: List.replicate (3 - fraction.length) '0' ++ fraction ++ ['s']
  discard (writeText 2 ("\nreal\t".toList ++ real ++ "\nuser\t0m0.000s\nsys\t0m0.000s\n".toList))

/-! ## Commands -/

/-- Runs a command, given a way to run those inside of it. -/
def step (run : Runner) (c : Command) : Run Unit := do
  attend run
  let e ← environment
  if e.options.contains 'n' then return ()
  let final := e.isFinal
  modifyEnvironment fun e => { e with isFinal := false }
  match c with
  | .nothing | .arm _ _ _ _ => return ()
  | .simple line assignments words redirections =>
    atLine line
    setStatus (← simple run final assignments words redirections)
    noteStatus
    attend run
    endOnFailure
  | .sequence first second =>
    run first
    runLast run final second
  | .both first second =>
    asTested (run first)
    if (← environment).status = 0 then runLast run final second
  | .either first second =>
    asTested (run first)
    if (← environment).status ≠ 0 then runLast run final second
  | .negated c =>
    asTested (run c)
    setStatus (if (← environment).status = 0 then 1 else 0)
  | .piped _ _ _ =>
    runPipeline c
    attend run
    endOnFailure
  | .detached c => runAside c
  | .subshell line c =>
    atLine line
    if final && e.isCopy && e.dialect = .plain && !e.hasTraps then
      -- nothing else is to be done here, so there is no need of a copy
      runLast run true c
      attend run
      throw (.exit (← environment).status)
    setStatus (← inCopy run (runLast run true c))
    noteStatus
    attend run
    endOnFailure
  | .redirected line c redirections =>
    atLine line
    keeping (changedBy redirections) do
      if ← redirectAll run redirections then run c
      else
        setStatus (← failedRedirection)
        match c with
        | .subshell _ _ => endOnFailure
        | _ => pure ()
  | .branch condition yes no =>
    asTested (run condition)
    if (← environment).status = 0 then runLast run final yes
    else
      match no with
      | .nothing => setStatus 0
      | _ => runLast run final no
  | .loop wanted condition body => conditionLoop run wanted condition body
  | .each line name words body =>
    atLine line
    let values ← match words with
      | some ws => Expand.fields (innerOf run) ws
      | none => pure (← environment).arguments
    setStatus 0
    eachValue run name body values
  | .counted line first goOn next body =>
    atLine line
    countedLoop run first goOn next body
  | .byForm line subject arms =>
    atLine line
    let subject ← Expand.text (innerOf run) subject
    setStatus 0
    runArms run final subject false arms
  | .define _ name body =>
    modifyEnvironment fun e => { e with functions := e.functions.insert name body, status := 0 }
  | .question line words =>
    atLine line
    setStatus (if ← Question.answer run words then 0 else 1)
    noteStatus
    endOnFailure
  | .sum line expression =>
    atLine line
    setStatus (if (← sumOf run expression) = 0 then 1 else 0)
    noteStatus
    endOnFailure
  | .timed c =>
    let began := (← get).clock
    run c
    tellTime ((← get).clock - began)

/-- Runs a command, down to some depth of commands within commands; a process that goes deeper has no room
left and is ended. -/
def Command.run : (depth : Nat) → Runner
  | 0 => fun _ => do throw (.killed (← environment).process 11)
  | depth + 1 => fun c => step (Command.run depth) c

end LuaTree.Shell

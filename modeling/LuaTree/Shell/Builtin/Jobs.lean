import LuaTree.Shell.Builtin.Basic
import LuaTree.Shell.Process
import LuaTree.Shell.Quote

/-!
# Commands about processes and signals

`kill` sends signals, `trap` says what is to be done when they arrive, `wait` waits for processes that were
started aside and `jobs` lists them.
-/

namespace LuaTree.Shell.Builtin

open Run

def signalName (dialect : Dialect) (n : Nat) : Raw :=
  if n = 0 then "EXIT".toList
  else
    match Signal.table.find? (·.2 = n) with
    | some (name, _) => (if dialect = .extended then "SIG".toList else []) ++ name.toList
    | none => Raw.ofNat n

/-- The signal that a name or a number stands for; only the extended dialect knows longer names. -/
def signal? (dialect : Dialect) (t : Raw) : Option Nat :=
  if dialect = .plain ∧ (String.ofList t).toUpper.startsWith "SIG" then none
  else if (String.ofList t).toUpper = "EXIT" then some 0
  else Signal.ofText? t

def trapKey (n : Nat) : Raw := if n = 0 then "EXIT".toList else Raw.ofNat n

/-- What is done for signals, in the order of their numbers. -/
def traps (e : Environment) : List (Nat × Raw) :=
  (List.range 65).filterMap fun n => (e.traps.get? (trapKey n)).map (n, ·)

/-- `trap`: says what is to be done when signals arrive, or lists it. -/
def trap : Builtin := fun _ arguments => do
  let g ← given (if ← isExtended then "lp" else "") "" arguments
  let e ← environment
  let line (p : Nat × Raw) : Raw :=
    let action := if e.dialect = .extended then
        Quote.between p.2
      else Quote.listed p.2
    "trap -- ".toList ++ action ++ ' ' :: signalName e.dialect p.1 ++ ['\n']
  match g.operands with
  | [] => put ((traps e).flatMap line)
  | first :: rest =>
    let resets := rest = [] || (Raw.nat? first).any (· ≤ 64)
    let signals := if resets then first :: rest else rest
    let action? := if resets ∨ first = ['-'] then none else some first
    for s in signals do
      match signal? e.dialect s with
      | some n =>
        modifyEnvironment fun e =>
          { e with traps := match action? with
              | some action => e.traps.insert (trapKey n) action
              | none => e.traps.erase (trapKey n) }
      | none =>
        if e.dialect = .extended then
          complainOwn (s ++ ": invalid signal specification".toList)
        else complainLine ("trap: ".toList ++ s ++ ": bad trap".toList)
        return 1
    return 0

/-- The process of a job that a text such as `%1` stands for. -/
def jobOf (t : Raw) : Run Nat := do
  let jobs := (← environment).jobs
  let found? : Option Job :=
    match t.drop 1 with
    | [] | ['%'] | ['+'] => jobs.head?
    | ['-'] => jobs[1]?
    | n => (Raw.nat? n).bind fun n => jobs.find? (·.number = n)
  match found? with
  | some j => return j.process
  | none => fatal ("No such job: ".toList ++ t)

/-- How `kill` is to be called. -/
def killUse {α : Type} : Run α := do
  if ← isExtended then
    let usage := (usages.lookup "kill").getD ""
    complainLine ("kill: usage: kill ".toList ++ usage.toList)
    throw (.failed 2)
  else
    fatal ("Usage: kill [-s sigspec | -signum | -sigspec] [pid | job]... or\n".toList
      ++ "kill -l [exitstatus]".toList)

def listSignals (targets : List Raw) : Run Nat := do
  let e ← environment
  match targets with
  | [] =>
    put ("0\n".toList ++ (List.range 65).flatMap fun n =>
      if n = 0 then [] else signalName .plain n ++ ['\n'])
  | t :: _ =>
    match e.dialect, (Signal.ofText? t), Raw.nat? t with
    | .extended, some n, none => put (Raw.ofNat n ++ ['\n'])
    | _, _, _ =>
      let n ← number t
      let signal := if 128 < n then n - 128 else n
      if 0 < signal ∧ signal < 65 then put (signalName .plain signal ++ ['\n'])
      else fatal ("invalid signal number or exit status: ".toList ++ t)

def killAll (signal : Nat) : (status : Nat) → List Raw → Run Nat
  | status, [] => return status
  | status, t :: rest => do
    let e ← environment
    if e.dialect = .extended ∧ t.head? ≠ some '%' ∧ (Raw.int? t).isNone then
      complainOwn (t ++ ": arguments must be process or job IDs".toList)
      return ← killAll signal 1 rest
    let process ← if t.head? = some '%' then jobOf t
      else if t.head? = some '-' then number (t.drop 1) else number t
    -- jobs are no groups of processes that could be sent something in the plain dialect
    let isGroup : Bool := e.dialect = .plain && t.head? = some '%'
    let isSent ← if isGroup then pure false else send process signal
    if isSent then killAll signal status rest
    else
      if e.dialect = .extended then complainOwn ('(' :: t ++ ") - No such process".toList)
      else complain "No such process\n".toList
      killAll signal 1 rest

/-- `kill`: sends signals. -/
def kill : Builtin := fun _ arguments => do
  let e ← environment
  let badSignal (t : Raw) : Run Nat := do
    if e.dialect = .extended then
      complainOwn (t ++ ": invalid signal specification".toList)
      return 1
    else fatal ("invalid signal number or name: ".toList ++ t)
  match arguments with
  | [] => killUse
  | first :: rest =>
    match first with
    | '-' :: name =>
      match signal? e.dialect name with
      | some signal => if rest = [] then killUse else killAll signal 0 rest
      | none =>
        if e.dialect = .extended ∧ name.head?.any (fun c => !"lsn-L".toList.contains c) then
          return ← badSignal name
        let g ← given "l" (if e.dialect = .extended then "sn" else "s") arguments
        if g.has 'l' then listSignals g.operands
        else
          let wish? := if e.dialect = .extended then (g.options.getLast?).map Prod.snd else g.value? 's'
          match wish?.map fun t => (t, signal? e.dialect t) with
          | some (t, none) => badSignal t
          | some (_, some signal) => if g.operands = [] then killUse else killAll signal 0 g.operands
          | none => if g.operands = [] then killUse else killAll 15 0 g.operands
    | _ => killAll 15 0 arguments

/-- The signal that has arrived and for which something is to be done. -/
def caught? (e : Environment) : Option Nat :=
  (e.arrived.find? fun (p, s) => p = e.process && (e.trap? s).any (· ≠ [])).map Prod.snd

/-- Waits until a process has ended, or a signal arrives for which something is to be done. -/
def awaited (process : Nat) : (fuel : Nat) → Run (Except Nat Ending)
  | 0 => throw .exhausted
  | fuel + 1 => do
    let m ← get
    match m.endings.get? process, caught? m.environment with
    | some ending, _ => return .ok ending
    | none, some signal => return .error signal
    | none, none =>
      pause (.process process)
      awaited process fuel

/-- Waits for processes one after the other. -/
def awaitAll (tells : Bool) : (status : Nat) → List Job → Run Nat
  | status, [] => return status
  | _, j :: rest => do
    match ← awaited j.process rounds with
    | .error signal => return 128 + signal
    | .ok ending =>
      match ending, j.ending? with
      | .killed n, none => if tells then reportEnding n
      | _, _ => pure ()
      noticeEndings
      modifyEnvironment fun e =>
        { e with jobs := e.jobs.map fun k => if k.process = j.process then { k with isSettled := true } else k }
      awaitAll tells (if tells then ending.status else 0) rest

/-- The processes that arguments stand for; nothing for those that are not the shell's. -/
def awaitEach : (status : Nat) → List Raw → Run Nat
  | status, [] => return status
  | _, t :: rest => do
    let e ← environment
    if e.dialect = .extended ∧ t.head? ≠ some '%' ∧ (Raw.nat? t).isNone then
      complainOwn ('\x60' :: t ++ "': not a pid or valid job spec".toList)
      return ← awaitEach 1 rest
    let p ← if t.head? = some '%' then jobOf t else number t
    match e.jobs.find? (·.process = p) with
    | some j =>
      let status ← awaitAll true 127 [j]
      if (caught? (← environment)).isSome then return status
      awaitEach status rest
    | none =>
      if e.dialect = .extended then
        complainOwn ("pid ".toList ++ t ++ " is not a child of this shell".toList)
      awaitEach 127 rest

/-- `wait`: waits for processes that were started aside. -/
def wait : Builtin := fun _ arguments => do
  let g ← given (if ← isExtended then "fn" else "") "" arguments
  if g.operands = [] then awaitAll false 0 (← environment).jobs.reverse
  else awaitEach 127 g.operands

/-- The lines for jobs, given those that are still known; what has ended is known no more once it is shown. -/
def jobLines (wantsNumber onlyNumber : Bool) : List Job → List Job → List Job × List Raw
  | known, [] => (known, [])
  | known, j :: rest =>
    let mark := if (known.head?).any (·.number = j.number) then '+'
      else if (known[1]?).any (·.number = j.number) then '-' else ' '
    let state := match j.ending? with
      | none => "Running".toList
      | some (.exited 0) => "Done".toList
      | some (.exited n) => "Done(".toList ++ Raw.ofNat n ++ [')']
      | some (.killed n) => (Signal.ending n).toList
    let head := '[' :: Raw.ofNat j.number ++ "] ".toList ++ [mark, ' ']
      ++ (if wantsNumber then Raw.ofNat j.process ++ [' '] else [])
    let line := if onlyNumber then Raw.ofNat j.process ++ ['\n']
      else head ++ state ++ List.replicate (max 1 (33 - (head.length + state.length))) ' ' ++ ['\n']
    let known := if j.ending?.isSome && !onlyNumber then known.filter (·.number ≠ j.number) else known
    let (known, lines) := jobLines wantsNumber onlyNumber known rest
    (known, line :: lines)

/-- `jobs`: lists the processes that were started aside. -/
def jobs : Builtin := fun _ arguments => do
  let g ← given "lp" "" arguments
  noticeEndings
  let e ← environment
  let (jobs, lines) := jobLines (g.has 'l') (g.has 'p') e.jobs e.jobs
  modifyEnvironment fun e => { e with jobs }
  put lines.flatten

end LuaTree.Shell.Builtin

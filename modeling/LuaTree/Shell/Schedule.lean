import LuaTree.Shell.Descriptor

/-!
# Processes that take turns

`Schedule.run` runs a first process and all that it starts. The one that goes on next is the one that could
have gone on first, and of those that could go on at the same time the one that has waited longest; time
passes only when none of them can go on.

The whole is over when the first process has ended and nobody is left who could add to what it has written,
or when everybody waits for somebody else.
-/

namespace LuaTree.Shell.Schedule

open Run

/-- A process that waits for its turn. -/
structure Task where
  process : Nat
  environment : Environment
  waiting : Waiting
  since : Nat
  resume : Machine → Course Nat

/-- The moment from which on a process can go on, if there is one. -/
def Task.moment? (m : Machine) (tasks : List Task) (t : Task) : Option Nat :=
  let isHeld (c : Channel) : Bool := tasks.any fun t => holds c t.environment
  let pipe (n : Nat) : Pipe := (m.pipes.get? n).getD {}
  let now (b : Bool) : Option Nat := if b then some t.since else none
  match t.waiting with
  | .time moment => some moment
  | .input n => now (0 < (pipe n).size || !isHeld (.writer n))
  | .room n => now ((pipe n).size < Pipe.capacity || !isHeld (.reader n))
  | .process n => now (m.endings.get? n).isSome
  | .processUntil n moment => some (if (m.endings.get? n).isSome then t.since else moment)
  | .silence k =>
    now (!(tasks.any fun u => u.process ≠ t.process && holds (.sink k) u.environment))

/-- The first of the tasks that go on earliest, with the moment, and the other ones. -/
def soonest? (m : Machine) (tasks : List Task) : Option (Nat × Task × List Task) :=
  let timed := tasks.filterMap fun t => (t.moment? m tasks).map fun n => (n, t)
  match timed with
  | [] => none
  | first :: rest =>
    let (n, t) := rest.foldl (fun best next => if next.1 < best.1 then next else best) first
    some (n, t, tasks.filter fun u => u.process ≠ t.process)

/-- Makes signals that are on their way arrive. What a process waits for does not keep it from noticing. -/
def delivered (m : Machine) (tasks : List Task) : List Task :=
  m.signals.foldl (fun tasks (process, signal) =>
    tasks.map fun t =>
      let isKnown := t.environment.arrived.contains (process, signal)
      if signal = childSignal && (isKnown || !t.environment.hears signal) then t
      else if t.environment.processes.contains process then
        let environment := { t.environment with arrived := t.environment.arrived ++ [(process, signal)] }
        let isOwn := t.environment.process = process
        { t with environment, waiting := if isOwn then .time m.clock else t.waiting }
      else t) tasks

/-- How a process has ended that came to its end in some way. -/
def endingOf (process : Nat) : Except Interruption Nat → Ending
  | .ok n | .error (.exit n) | .error (.leave n) | .error (.failed n) => .exited n
  | .error (.killed p n) => if p = process then .killed n else .exited (128 + n)
  | .error _ => .exited 2

/-- How long it takes until a process that has been started goes on by itself. Whoever has started it is a
little faster. -/
def birthTime : Nat := 500

/-- Lets processes take turns until the first one has ended and nobody else writes to its sinks. -/
def turns (start : Birth → Run Nat) (first : Nat) (sinks : List Nat) :
    (fuel : Nat) → Machine → List Task → Machine
  | 0, m, _ => m
  | fuel + 1, m, tasks =>
    let born := m.births.reverse.map fun b : Birth =>
      { process := b.process, environment := b.environment, waiting := .time (m.clock + birthTime),
        since := m.clock, resume := (do surviving; start b : Run Nat) : Task }
    let tasks := delivered m (tasks ++ born)
    let m := { m with births := [], signals := [] }
    let isOver := (m.endings.get? first).isSome
      && !(tasks.any fun t => sinks.any fun k => holds (.sink k) t.environment)
    if isOver then m
    else
      match soonest? m tasks with
      | none => m
      | some (moment, t, others) =>
        let m := { m with
          clock := max m.clock moment
          environment := t.environment
          others := others.map Task.environment }
        match t.resume m with
        | .ended result m =>
          let heirs := (t.environment.ancestors.head?).toList.map fun p => (p, childSignal)
          turns start first sinks fuel
            { m with
              endings := m.endings.insert t.process (endingOf t.process result)
              signals := m.signals ++ heirs } others
        | .paused waiting m resume =>
          turns start first sinks fuel m
            (others ++ [{ t with environment := m.environment, waiting, since := m.clock, resume }])

/-- Runs a first process, and what it starts, on a machine whose environment is that of the first process;
answers with how that ended. -/
def run (start : Birth → Run Nat) (sinks : List Nat) (act : Run Nat) (m : Machine) :
    Option Ending × Machine :=
  let first := m.environment.process
  let task : Task :=
    { process := first, environment := m.environment, waiting := .time m.clock, since := m.clock,
      resume := act }
  let m := turns start first sinks rounds m [task]
  (m.endings.get? first, m)

end LuaTree.Shell.Schedule

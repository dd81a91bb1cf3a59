import LuaTree.Shell.Reader
import LuaTree.Shell.Signal
import LuaTree.Store.Permission

/-!
# The machine

What running shells work on: the store, open files and pipes, a clock, and the environment of the process
that is running. `Run` is the monad of everything that runs on the machine.

Processes take turns. A computation either ends or pauses and says what it waits for (`Course`), with a
function that goes on with whatever the machine has become by then; whoever has several processes to run
decides which of them is next. Time is a number that only passes when every process waits for it, so a
script that sleeps takes no longer than one that does not, and the order of events is always the same.

An `Interruption` leaves the ordinary course of events; the machine's changes stay.
-/

namespace LuaTree.Shell

/-- What a descriptor leads to. -/
inductive Channel where
  | sink (id : Nat) -- a buffer that collects what is written
  | file (id : Nat)
  | reader (pipe : Nat)
  | writer (pipe : Nat)
  deriving DecidableEq, Inhabited

/-- A file that is open, and where in it the next byte is read or written. -/
structure OpenFile where
  handle : Handle
  offset : Nat := 0 -- the place of the next byte
  atEnd : Bool := false
  reads : Bool := false
  writes : Bool := false
  deriving Inhabited

/-- The bytes that have been written to a pipe and not been read. -/
structure Pipe where
  front : Bytes := [] -- the bytes that come first
  back : List Bytes := [] -- what was written after them, latest first
  size : Nat := 0
  deriving Inhabited

namespace Pipe

/-- How many bytes a pipe holds at most. -/
def capacity : Nat := 65536

/-- Adds bytes. -/
def push (p : Pipe) (data : Bytes) : Pipe :=
  { p with back := data :: p.back, size := p.size + data.length }

/-- The same with all bytes in front. -/
def normal (p : Pipe) : Pipe :=
  if p.back.isEmpty then p else { p with front := p.front ++ p.back.reverse.flatten, back := [] }

/-- Takes at most `n` bytes. -/
def take (p : Pipe) (n : Nat) : Bytes × Pipe :=
  let p := if p.front.isEmpty then p.normal else p
  let data := p.front.take n
  (data, { p with front := p.front.drop n, size := p.size - data.length })

end Pipe

/-- A variable. -/
structure Variable where
  value : Raw -- its value; that of the first place, if it is a list
  exported : Bool := false -- whether programs get to see it
  isFixed : Bool := false
  isSet : Bool := true
  list? : Option (List (Raw × Raw)) := none -- the places of a list and their values, in order
  byName : Bool := false -- whether the places of the list are words
  isSum : Bool := false -- whether its values are worked out as sums
  recased? : Option Bool := none -- whether its letters are made large, or small
  refers : Bool := false -- whether it stands for the variable that it names
  deriving Inhabited

def Variable.ofList (values : List Raw) : Variable :=
  { value := values.headD [], list? := some (values.zipIdx.map fun (t, k) => (Raw.ofNat k, t)) }

/-- How a process ended. -/
inductive Ending where
  | exited (status : Nat)
  | killed (signal : Nat)
  deriving DecidableEq, Inhabited

/-- The status that a shell sees of an ended process. -/
def Ending.status : Ending → Nat
  | .exited n => n
  | .killed n => 128 + n

/-- A process that a shell has started aside. -/
structure Job where
  number : Nat -- the number under which the shell keeps it
  process : Nat
  ending? : Option Ending := none -- how it has ended, if the shell has noticed that
  isSettled : Bool := false
  deriving Inhabited

/-- What a shell knows and a subshell gets a copy of. -/
structure Environment where
  name : Raw
  arguments : List Raw := []
  bindings : FiniteMap Raw Variable := .empty
  functions : FiniteMap Raw Command := .empty
  descriptors : FiniteMap Nat Channel := .empty
  kept : List (FiniteMap Nat Channel) := [] -- where they lead for what waits for this to end
  cwd : Location
  here : PathText := [] -- the working directory as the shell came to it
  mask : Nat -- the permission bits that new files do not get
  niceness : Int := 0 -- how readily the process gives way to others
  status : Nat := 0 -- the status of the last command
  options : List Char := []
  named : List String := [] -- the names of further options that are set
  tested : Bool := false -- whether failure is being asked about, so that it ends nothing
  -- what is done when a signal arrives, or at the end under the name `EXIT`
  traps : FiniteMap Raw Raw := .empty
  -- the signals that have arrived and have not been dealt with, each with the process it is for
  arrived : List (Nat × Nat) := []
  -- what the variables of a function were before, latest first
  locals : List (Raw × Option Variable) := []
  calls : List Raw := [] -- the functions that are being run, latest first
  loops : Nat := 0
  line : Nat := 1
  lineRead : Nat := 1
  -- the name of the command of the shell itself that is being run, for its complaints
  command? : Option Raw := none
  -- the numbers of the process and of those that wait for it, its own first
  processes : List Nat := []
  self : Nat := 0
  ancestors : List Nat := [] -- the processes for which it was started aside, the nearest first
  jobs : List Job := [] -- the processes that were started aside and are still known, latest first
  aside? : Option Nat := none -- the process that was started aside last
  substituted : Nat := 0 -- the status of the last script inside of a word
  aliases : List (Raw × Raw) := [] -- the words that stand for other texts
  optionIndex : Nat := 1 -- which argument the next option is looked for in
  optionPlace : Nat := 0 -- where in the argument before it the next option is looked for, or zero
  found : List Raw := []
  before? : Option Nat := none -- the status before what is being done for a signal or at the end
  statuses : List Nat := [0] -- the statuses of the parts of the last pipeline
  lastWord : Raw := [] -- the last word of the command before
  isCopy : Bool := false
  givesPlace : Bool := false -- whether the process is giving its place to another program
  isFinal : Bool := false -- whether nothing follows the command that comes next
  dialect : Dialect := .plain
  deriving Inhabited

/-- The signal for a process that one that it has started has ended. -/
def childSignal : Nat := 17

namespace Environment

def process (e : Environment) : Nat := e.processes.headD 0

def trap? (e : Environment) (signal : Nat) : Option Raw := e.traps.get? (Raw.ofNat signal)

def hears (e : Environment) (signal : Nat) : Bool := (e.trap? signal).any (· ≠ [])

/-- The environment of a copy of the process; it has its number, and forgets what it did for signals that it
did not ignore. -/
def copied (e : Environment) (number : Nat) : Environment :=
  { e with
    processes := number :: e.processes
    isCopy := true
    jobs := []
    traps := ⟨e.traps.entries.filter fun p => p.2 = [],
      e.traps.distinct.sublist (List.filter_sublist.map _)⟩ }

/-- The signal that ends the process, if one has arrived that does. -/
def doom? (e : Environment) : Option Nat :=
  (e.arrived.find? fun (p, s) =>
    p = e.process && (s = 9 || ((e.trap? s).isNone && Signal.isFatal s))).map Prod.snd

end Environment

/-- A process that is to be started. -/
structure Birth where
  process : Nat
  command : Command
  environment : Environment
  deriving Inhabited

/-- The state of everything. -/
structure Machine where
  store : Store
  -- what has been written to each collecting buffer, latest first
  sinks : FiniteMap Nat (List Bytes) := .empty
  files : FiniteMap Nat OpenFile := .empty
  pipes : FiniteMap Nat Pipe := .empty
  next : Nat := 100 -- the number of the next buffer, file, pipe or process
  clock : Nat := 0 -- the time, in millionths of a second
  -- when files have been written to, by their numbers, in ticks of the clock of the files
  times : FiniteMap Nat Int := .empty
  births : List Birth := [] -- the processes that are to be started, latest first
  endings : FiniteMap Nat Ending := .empty -- how processes ended that were started aside
  signals : List (Nat × Nat) := []
  others : List Environment := []
  environment : Environment
  deriving Inhabited

/-- How long a tick of the clock of the files is, in millionths of a second. -/
def tick : Nat := 4000

/-- The moment at which the clock starts, in seconds since the beginning of 1970. -/
def beginning : Int := 1767225600

/-- The present moment, in seconds since the beginning of 1970. -/
def Machine.now (m : Machine) : Int := beginning + m.clock / 1000000

/-- When what stands under an entry has been written to, in ticks. -/
def Machine.timeOf (m : Machine) : Entry → Int
  | .file i => (m.times.get? i).getD 0
  | _ => 0

/-- The moment of a tick, in seconds since the beginning of 1970. -/
def secondOfTick (ticks : Int) : Int := beginning + ticks * tick / 1000000

/-- The tick of a moment, in seconds since the beginning of 1970 and billionths. -/
def tickOf (second : Int) (fraction : Nat) : Int :=
  ((second - beginning) * 1000000 + fraction / 1000) / tick

/-- Sets when a file has been written to. -/
def Machine.dated (m : Machine) (i : Nat) (ticks : Int) : Machine := { m with times := m.times.insert i ticks }

/-- Notes that a file is written to. -/
def Machine.touched (m : Machine) (i : Nat) : Machine := m.dated i (m.clock / tick + 1)

/-- What a process waits for. -/
inductive Waiting where
  | time (moment : Nat)
  | input (pipe : Nat)
  | room (pipe : Nat)
  | process (number : Nat)
  | processUntil (number moment : Nat) -- the end of a process, but not longer than up to a time
  | silence (sink : Nat) -- that nobody else writes to a buffer any more
  deriving DecidableEq, Inhabited

/-- Why the ordinary course of events is left. -/
inductive Interruption where
  | exit (status : Nat)
  | failed (status : Nat) -- a mistake ends the shell, or the command of the shell that has made it
  | leave (status : Nat)
  | stop (levels : Nat)
  | again (levels : Nat) -- loops go on with their next round
  | killed (process signal : Nat)
  | givenUp -- the statement is given up; the script goes on with the next one
  | exhausted
  deriving DecidableEq, Inhabited

/-- How a computation goes on. -/
inductive Course (α : Type) where
  | ended (result : Except Interruption α) (machine : Machine)
  | paused (why : Waiting) (machine : Machine) (resume : Machine → Course α)

namespace Course

variable {α β : Type}

instance : Inhabited (Course α) := ⟨.ended (.error .exhausted) default⟩

/-- Goes on with another computation when one has ended. -/
def andThen (next : Except Interruption α → Machine → Course β) : Course α → Course β
  | .ended result m => next result m
  | .paused why m resume => .paused why m fun m => (resume m).andThen next

end Course

/-- Something that runs on the machine. -/
def Run (α : Type) : Type := Machine → Course α

namespace Run

variable {α β : Type}

instance : Monad Run where
  pure a := fun m => .ended (.ok a) m
  bind act f := fun m => (act m).andThen fun
    | .ok a, m => f a m
    | .error e, m => .ended (.error e) m

instance : MonadStateOf Machine Run where
  get := fun m => .ended (.ok m) m
  set m := fun _ => .ended (.ok ()) m
  modifyGet f := fun m =>
    let (a, m) := f m
    .ended (.ok a) m

instance : MonadExceptOf Interruption Run where
  throw e := fun m => .ended (.error e) m
  tryCatch act handle := fun m => (act m).andThen fun
    | .ok a, m => .ended (.ok a) m
    | .error e, m => handle e m

instance : Inhabited (Run α) := ⟨fun m => .ended (.error .exhausted) m⟩

/-- Runs something and answers with how it ended. -/
def attempt (act : Run α) : Run (Except Interruption α) := fun m =>
  (act m).andThen fun r m => .ended (.ok r) m

/-- Ends the process if a signal has arrived that does so. -/
def surviving : Run Unit := fun m =>
  match m.environment.doom? with
  | some signal => .ended (.error (.killed m.environment.process signal)) m
  | none => .ended (.ok ()) m

/-- Waits, unless a signal ends the process meanwhile. Something else may have happened than what is waited
for. -/
def pause (why : Waiting) : Run Unit := fun m => .paused why m surviving

/-! ## The environment -/

def environment : Run Environment := return (← get).environment

def modifyEnvironment (f : Environment → Environment) : Run Unit :=
  modify fun m => { m with environment := f m.environment }

def setStatus (n : Nat) : Run Unit := modifyEnvironment fun e => { e with status := n }

/-- Runs something and puts a part of the environment back afterwards, whatever happens. The signals that
have arrived meanwhile stay. -/
def restoring (restore : Environment → Environment → Environment) (act : Run α) : Run α := fun m =>
  (act m).andThen fun r m' =>
    .ended r { m' with
      environment := { restore m.environment m'.environment with arrived := m'.environment.arrived } }

def isExtended : Run Bool := return (← environment).dialect = .extended

/-! ## Time -/

/-- How long it takes to make a copy of a process, in millionths of a second. -/
def forkTime : Nat := 300

def startTime : Nat := 1000

def roundTime : Nat := 10

/-- Lets time pass. -/
def spend (time : Nat) : Run Unit := do pause (.time ((← get).clock + time))

/-- Does something over and over until it says that it is done. -/
def repeatWhile : (fuel : Nat) → Run Bool → Run Unit
  | 0, _ => throw .exhausted
  | fuel + 1, act => do
    if ← act then
      spend roundTime
      repeatWhile fuel act

/-- More rounds than a loop will take. -/
def rounds : Nat := 100000000

/-- A number that has not been used. -/
def fresh : Run Nat := modifyGet fun m => (m.next, { m with next := m.next + 1 })

end Run

/-- The text of a refusal, without its number. -/
def refusalText : IoError → String
  | .os e => e.text
  | .refused reason => reason
  | .atPath cause _ => refusalText cause

end LuaTree.Shell

import LuaTree.Shell.Process
import LuaTree.Shell.Script
import LuaTree.Shell.Utility.Files

/-!
# Utilities that start programs

`env`, `nice`, `nohup` and their like give their place to another program after a change to what it is
handed; `timeout` watches over one, and `xargs` makes arguments of its input and starts programs with them.
-/

namespace LuaTree.Shell.Utility

open Run

/-- A utility that can start programs. -/
abbrev StartingUtility := Starter → Utility

/-- The status of a utility that could not start a program. -/
def unstarted (e : Errno) : Nat := if e = .noEntry then 127 else 126

/-- Gives the place of the utility to a program, or complains. -/
def giveWay (start : Starter) (name : Raw) (task : String) (program : Raw) (arguments : List Raw) :
    Run Nat := do
  match ← start true program arguments with
  | .ok ending => return ending.status
  | .error e =>
    complain name (task.toList ++ Quote.shown program ++ ": ".toList ++ e.text.toList)
    return unstarted e

/-! ## Changed surroundings -/

/-- Cuts a text into arguments at blanks outside of quotes; `value` gives the values of variables. -/
def wordsOf (value : Raw → Raw) : (fuel : Nat) → (done : List Raw) → (word? : Option Raw) →
    (quote? : Option Char) → Raw → List Raw
  | 0, done, _, _, _ => done.reverse
  | _ + 1, done, word?, _, [] => ((word?.map List.reverse).toList ++ done).reverse
  | fuel + 1, done, word?, quote?, c :: rest =>
    let word := word?.getD []
    let add (t : Raw) (rest : Raw) : List Raw := wordsOf value fuel done (some (t.reverse ++ word)) quote? rest
    if quote? = some c then wordsOf value fuel done (some word) none rest
    else if quote?.isNone ∧ (c = '\'' ∨ c = '"') then wordsOf value fuel done (some word) (some c) rest
    else if quote?.isNone ∧ (c = ' ' ∨ ('\t' ≤ c ∧ c ≤ '\r')) then
      wordsOf value fuel ((word?.map List.reverse).toList ++ done) none none rest
    else if c = '$' ∧ quote? ≠ some '\'' ∧ rest.head? = some '\x7b' then
      let x := (rest.drop 1).takeWhile (· ≠ '\x7d')
      add (value x) (rest.drop (x.length + 2))
    else if c = '\\' then
      match rest with
      | d :: rest =>
        if quote? = some '\'' then if d = '\'' ∨ d = '\\' then add [d] rest else add ['\\', d] rest
        else
          match d with
          | 'n' => add ['\n'] rest
          | 't' => add ['\t'] rest
          | 'r' => add ['\r'] rest
          | '_' =>
            if quote?.isSome then add [' '] rest
            else wordsOf value fuel ((word?.map List.reverse).toList ++ done) none none rest
          | d => add [d] rest
      | [] => add ['\\'] []
    else add [c] rest

/-- Puts in the arguments that stand in one text behind the option for that. -/
def unpacked (value : Raw → Raw) : (fuel : Nat) → List Raw → List Raw
  | 0, arguments => arguments
  | fuel + 1, a :: rest =>
    let cut (t : Raw) : List Raw := wordsOf value (t.length + 1) [] none none t
    if "-S".toList.isPrefixOf a ∧ 2 < a.length then unpacked value fuel (cut (a.drop 2) ++ rest)
    else if "-vS".toList.isPrefixOf a ∧ 3 < a.length then unpacked value fuel (cut (a.drop 3) ++ rest)
    else if "--split-string=".toList.isPrefixOf a then unpacked value fuel (cut (a.drop 15) ++ rest)
    else if a = "-S".toList then
      match rest with
      | t :: rest => unpacked value fuel (cut t ++ rest)
      | [] => [a]
    else if a = ['-', 'u'] ∨ a = ['-', 'C'] then a :: rest.take 1 ++ unpacked value fuel (rest.drop 1)
    else if a.head? = some '-' ∧ 1 < a.length ∧ a ≠ ['-', '-'] then a :: unpacked value fuel rest
    else a :: rest
  | _ + 1, [] => []

/-- What is said besides when several words seem to be meant as one. -/
def complainPacked (name t : Raw) : Run Unit := do
  if t.any Char.isWhitespace then
    complain name "use -[v]S to pass options in shebang lines".toList

/-- `env`: starts a program with changed variables, or writes the variables. -/
def env : StartingUtility := fun start name arguments => do
  let e ← environment
  let value (x : Raw) : Raw := ((e.bindings.get? x).map Variable.value).getD []
  let table : OptionTable :=
    { flags := "i0v", valued := "uCS", inOrder := true
      long := [("ignore-environment", 'i'), ("null", '0'), ("unset", 'u'), ("chdir", 'C'),
        ("split-string", 'S'), ("debug", 'v')] }
  match table.read {} (unpacked value 100 arguments) with
  | .error message =>
    complain name message
    -- an option that is a blank comes from a line with several words
    if message.reverse.take 2 = ['\'', ' '] then complainPacked name [' ']
    complainLine ("Try '".toList ++ name ++ " --help' for more information.".toList)
    return 125
  | .ok o =>
    let clear := o.has 'i' || o.operands.head? = some ['-']
    let operands := if o.operands.head? = some ['-'] then o.operands.drop 1 else o.operands
    let settings := operands.takeWhile (·.contains '=')
    let change (vs : FiniteMap Raw Variable) : FiniteMap Raw Variable :=
      let vs := if clear then .empty else vs
      let vs := (o.values 'u').foldl (fun vs x => vs.erase x) vs
      settings.foldl (fun vs a =>
        let x := a.takeWhile (· ≠ '=')
        vs.insert x { value := a.drop (x.length + 1), exported := true }) vs
    modifyEnvironment fun e => { e with bindings := change e.bindings }
    let command := operands.drop settings.length
    match o.value? 'C', command with
    | some _, [] => complainUsage name "must specify command with --chdir (-C)".toList 125
    | dir?, command =>
      let moved : Except IoError Location ← match dir? with
        | none => pure (.ok e.cwd)
        | some dir => do
          match (← get).store.stat? e.cwd (Raw.path dir) with
          | .ok (loc, .dir _) => pure (.ok loc)
          | .ok _ => pure (.error (.os .notDirectory))
          | .error err => pure (.error err)
      match moved with
      | .error err =>
        complainAbout name "cannot change directory to" (dir?.getD []) err
        return 125
      | .ok cwd =>
        modifyEnvironment fun e => { e with cwd }
        match command with
        | [] =>
          for (x, v) in (← environment).bindings.entries.reverse do
            putText (x ++ '=' :: v.value ++ (if o.has '0' then ['\x00'] else ['\n'])) 125
          return 0
        | program :: rest =>
          if o.has '0' then
            complainUsage name "cannot specify --null (-0) with command".toList 125
          else
            let status ← giveWay start name "" program rest
            if status = 127 then complainPacked name program
            return status

/-- `nohup`: starts a program that does not mind the end of its terminal. -/
def nohup : StartingUtility := fun start => withTable { inOrder := true } (fun name o => do
  match o.operands with
  | [] => complainMissing name "operand" 125
  | program :: rest =>
    modifyEnvironment fun e => { e with traps := e.traps.insert ['1'] [] }
    giveWay start name "failed to run command " program rest) 125

/-- `nice`: starts a program that leaves more time to others. -/
def nice : StartingUtility := fun start name arguments =>
  let arguments := match arguments with
    | ('-' :: c :: t) :: rest => if c.isDigit then ['-', 'n'] :: (c :: t) :: rest else arguments
    | _ => arguments
  withTable { valued := "n", long := [("adjustment", 'n')], inOrder := true } (fun name o => do
    match (o.value? 'n').map fun t => (t, Raw.int? t) with
    | some (t, none) =>
      complain name ("invalid adjustment ".toList ++ Quote.shown t)
      return 125
    | given =>
      match o.operands with
      | [] =>
        if given.isSome then complainUsage name "a command must be given with an adjustment".toList 125
        else do
          putLine (Raw.ofInt (← environment).niceness)
          return 0
      | program :: rest =>
        let more := (given.bind Prod.snd).getD 10
        modifyEnvironment fun e => { e with niceness := max (-20) (min 19 (e.niceness + more)) }
        giveWay start name "" program rest) 125 name arguments

/-- `setsid`: starts a program in a session of its own. -/
def setsid : StartingUtility := fun start => withTable { flags := "cfw", inOrder := true } fun name o => do
  match o.operands with
  | [] => complainUsage name "no command specified".toList
  | program :: rest => giveWay start name "failed to execute " program rest

/-- `stdbuf`: starts a program with other buffers, which cannot be told from the usual ones. -/
def stdbuf : StartingUtility := fun start =>
  withTable { valued := "ioe", long := [("input", 'i'), ("output", 'o'), ("error", 'e')], inOrder := true }
    (fun name o => do
      match o.operands with
      | [] => complainMissing name "operand" 125
      | program :: rest =>
        if o.given = [] then complainUsage name "you must specify a buffering mode option".toList 125
        else giveWay start name "failed to run command " program rest) 125

/-! ## Watching over a program -/

/-- Waits for the end of a process up to some moment. -/
def endingUntil? (process moment : Nat) : (fuel : Nat) → Run (Option Ending)
  | 0 => throw .exhausted
  | fuel + 1 => do
    let m ← get
    match m.endings.get? process with
    | some ending => return some ending
    | none =>
      if moment ≤ m.clock then return none
      pause (.processUntil process moment)
      endingUntil? process moment fuel

/-- Sends a signal to a process and all that it has started. -/
def signalFamily (process signal : Nat) : Run Unit :=
  modify fun m =>
    let members := m.others.flatMap fun e =>
      let row := e.processes ++ e.ancestors
      if row.contains process then (row.takeWhile (· ≠ process)).filter e.processes.contains else []
    { m with signals := m.signals ++ (members ++ [process]).eraseDups.map fun p => (p, signal) }

/-- `timeout`: starts a program and ends it if it takes too long. -/
def timeout : StartingUtility := fun start => withTable
    { flags := "fvp", valued := "sk", inOrder := true
      long := [("signal", 's'), ("kill-after", 'k'), ("preserve-status", 'p'), ("foreground", 'f'),
        ("verbose", 'v')] } (fun name o => do
  let badTime (t : Raw) : Run Nat := complainUsage name ("invalid time interval ".toList ++ Quote.shown t) 125
  let signalText := (o.value? 's').getD "TERM".toList
  match Signal.ofText? signalText, (o.value? 'k').map fun t => (t, duration? t), o.operands with
  | none, _, _ => complainUsage name (Quote.shown signalText ++ ": invalid signal".toList) 125
  | _, some (t, none), _ => badTime t
  | some signal, patience, limit :: program :: arguments =>
    match duration? limit with
    | none => badTime limit
    | some time =>
      if time = 0 then giveWay start name "failed to run command " program arguments
      else
        let m ← get
        let e := m.environment
        let path := ((e.bindings.get? "PATH".toList).map Variable.value).getD usualPath
        match Exec.findAnyhow m.store e.cwd path program arguments with
        | .error err =>
          complain name ("failed to run command ".toList ++ Quote.shown program ++ ": ".toList
            ++ err.text.toList)
          return unstarted err
        | .ok _ =>
          let words : List Word := ("exec".toList :: program :: arguments).map fun t => [.text true t]
          let began := m.clock
          let child ← startAside (.simple 1 [] words []) id
          let tell (signal : Nat) : Run Unit := do
            if o.has 'v' then
              complain name ("sending signal ".toList
                ++ ((Signal.table.find? (·.2 = signal)).map (·.1.toList)).getD (Raw.ofNat signal)
                ++ " to command ".toList ++ Quote.shown program)
            signalFamily child signal
          match ← endingUntil? child (began + time) rounds with
          | some ending =>
            match ending with
            | .exited n => return n
            | .killed n => throw (.killed (← environment).process n)
          | none =>
            tell signal
            let ending ← match patience with
              | some (_, some more) => do
                match ← endingUntil? child ((← get).clock + more) rounds with
                | some ending => pure ending
                | none =>
                  tell 9
                  endingOf child rounds
              | _ => endingOf child rounds
            if ending = .killed 9 then throw (.killed (← environment).process 9)
            return if o.has 'p' then ending.status else 124
  | _, _, _ => do
    complainLine ("Try '".toList ++ name ++ " --help' for more information.".toList)
    return 125) 125

/-! ## Arguments from input -/

/-- The arguments that a text stands for, which blanks separate, each with whether a line ends behind it, or the
quote that is not closed. -/
def inputWords (isBlank : Char → Bool) : (fuel : Nat) → (done : List (Raw × Bool)) → (word? : Option Raw) →
    Raw → List (Raw × Bool) × Option Char
  | 0, done, _, _ => (done.reverse, none)
  | _ + 1, done, word?, [] =>
    ((match word? with
      | some w => (w.reverse, true) :: done
      | none => done).reverse, none)
  | fuel + 1, done, word?, c :: rest =>
    if c = '\'' ∨ c = '"' then
      let inner := rest.takeWhile fun d => d ≠ c && d ≠ '\n'
      if (rest.drop inner.length).head? = some c then
        inputWords isBlank fuel done (some (inner.reverse ++ word?.getD [])) (rest.drop (inner.length + 1))
      else (done.reverse, some c)
    else if c = '\\' then
      match rest with
      | d :: rest => inputWords isBlank fuel done (some (d :: word?.getD [])) rest
      | [] => inputWords isBlank fuel done word? []
    else if isBlank c then
      let done := match word? with
        | some w => (w.reverse, decide (c = '\n')) :: done
        | none => done
      inputWords isBlank fuel done none rest
    else inputWords isBlank fuel done (some (c :: word?.getD [])) rest

/-- The lines of a text as arguments, without the blanks before them. -/
def inputLines (t : Raw) : List Raw × Option Char :=
  let one (line : Raw) : Option (Except Char Raw) :=
    let line := line.dropWhile fun c => c = ' ' || c = '\t'
    if line = [] then none
    else
      match inputWords (fun _ => false) (line.length + 1) [] none line with
      | (_, some q) => some (.error q)
      | (words, none) => some (.ok (words.flatMap Prod.fst))
  let read := (t.splitOn '\n').filterMap one
  let good := read.takeWhile fun r => match r with
    | .ok _ => true
    | .error _ => false
  (good.filterMap fun r => r.toOption,
    read.findSome? fun r => match r with
      | .ok _ => none
      | .error q => some q)

/-- Puts a text in for every place where another one stands. -/
def substituted (mark value : Raw) : (fuel : Nat) → Raw → Raw
  | 0, t => t
  | _ + 1, [] => []
  | fuel + 1, c :: t =>
    if mark ≠ [] ∧ mark.isPrefixOf (c :: t) then
      value ++ substituted mark value fuel ((c :: t).drop mark.length)
    else c :: substituted mark value fuel t

/-- Groups of words that are being made. -/
structure Grouping where
  done : List (List Raw) := [] -- the groups that are complete, the last one first
  current : List Raw := [] -- the words of the present group, the last one first
  lines : Nat := 0 -- how many lines the present group holds
  size : Nat := 0 -- how many characters the present group takes
  -- whether a word has not fitted into a group of its own, which ends everything
  isStuck : Bool := false

namespace Grouping

def next (g : Grouping) : Grouping :=
  if g.current = [] then g else { done := g.current.reverse :: g.done, isStuck := g.isStuck }

/-- Puts a word into a group of at most so many words, lines and characters. -/
def add (words? lines? room? : Option Nat) (g : Grouping) (w : Raw × Bool) : Grouping :=
  if g.isStuck then g
  else
    let fits (g : Grouping) : Bool := room?.all (g.size + w.1.length + 1 ≤ ·)
    let g := if fits g then g else g.next
    if !fits g then { g with isStuck := true }
    else
      let g := { g with
        current := w.1 :: g.current, lines := if w.2 then g.lines + 1 else g.lines, size := g.size + w.1.length + 1 }
      if words?.any (· ≤ g.current.length) ∨ lines?.any (· ≤ g.lines) then g.next else g

end Grouping

/-- Cuts words into groups of at most so many words, lines and characters; tells whether a word is too long. -/
def groups (words? lines? room? : Option Nat) (ws : List (Raw × Bool)) : List (List Raw) × Bool :=
  let g := (ws.foldl (Grouping.add words? lines? room?) {}).next
  (g.done.reverse, g.isStuck)

/-- `xargs`: starts a program with arguments that are read. -/
def xargs : StartingUtility := fun start => withTable
    { flags := "0rtxp", valued := "nILdPsEa", optional := "il", inOrder := true
      long := [("null", '0'), ("no-run-if-empty", 'r'), ("verbose", 't'), ("max-args", 'n'), ("replace", 'I'),
        ("max-lines", 'L'), ("delimiter", 'd'), ("max-procs", 'P'), ("max-chars", 's'), ("exit", 'x'),
        ("arg-file", 'a'), ("eof", 'E')] } (fun name o => do
  let badNumber? := ['n', 'L', 'P', 's'].findSome? fun c =>
    match o.value? c with
    | some t => if (Raw.nat? t).isNone then some (c, t) else none
    | none => none
  match badNumber? with
  | some (c, t) =>
    return ← complainUsage name
      ("invalid number \"".toList ++ t ++ "\" for -".toList ++ [c] ++ " option".toList)
  | none => pure ()
  let mark? := match o.value? 'i' with
    | some [] => some "\x7b\x7d".toList
    | some t => some t
    | none => o.value? 'I'
  let delimiter? : Option Char :=
    if o.has '0' then some '\x00'
    else (o.value? 'd').bind fun t => ((Format.expanded .utility t).1).head?
  let file := (o.value? 'a').getD ['-']
  let data ← match ← inputOf file with
    | .error e =>
      complain name ("Cannot open input file ".toList ++ Quote.shown file ++ ": ".toList
        ++ (refusalText e).toList)
      return 1
    | .ok data => pure (Raw.ofBytes data)
  let (words, open?) : List (Raw × Bool) × Option Char :=
    match delimiter?, mark? with
    | some d, _ =>
      let parts := data.splitOn d
      ((if parts.getLast? = some [] then parts.dropLast else parts).map (·, true), none)
    | none, some _ =>
      let (ls, q?) := inputLines data
      (ls.map (·, true), q?)
    | none, none => inputWords (" \t\n".toList.contains ·) (data.length + 1) [] none data
  let words := match o.value? 'E' with
    | some mark => words.takeWhile (·.1 ≠ mark)
    | none => words
  let (program, given) := match o.operands with
    | [] => ("echo".toList, [])
    | p :: rest => (p, rest)
  let number? (c : Char) : Option Nat := (o.value? c).bind Raw.nat?
  let taken := (program :: given).foldl (fun n t => n + t.length + 1) 0
  let (calls, isStuck) : List (Raw × List Raw) × Bool :=
    match mark? with
    | some mark =>
      let put (w t : Raw) : Raw := substituted mark w (t.length + 1) t
      (words.map fun w => (put w.1 program, given.map (put w.1)), false)
    | none =>
      if words = [] then (if o.has 'r' ∨ open?.isSome then [] else [(program, given)], false)
      else
        let (gs, isStuck) := groups (number? 'n') (number? 'L') ((number? 's').map (· - taken)) words
        (gs.map fun g => (program, given ++ g), isStuck)
  match open? with
  | some q =>
    complain name ("unmatched ".toList ++ (if q = '"' then "double" else "single").toList
      ++ " quote; by default quotes are special to xargs unless you use the -0 option".toList)
  | none => pure ()
  let null ← opened { handle := .device .null, reads := true }
  let mut status := if open?.isSome then 1 else 0
  for (program, arguments) in calls do
    if o.has 't' then
      complainLine ([' '].intercalate ((program :: arguments).map (Quote.ifNeeded false)))
    let act : Run (Except Errno Ending) := start false program arguments
    match ← (if file = ['-'] then withChannel 0 null act else act) with
    | .error e =>
      complain name (program ++ ": ".toList ++ e.text.toList)
      return unstarted e
    | .ok (.killed n) =>
      complain name (program ++ ": terminated by signal ".toList ++ Raw.ofNat n)
      return 125
    | .ok (.exited 255) =>
      complain name (program ++ ": exited with status 255; aborting".toList)
      return 124
    | .ok (.exited 0) => pure ()
    | .ok (.exited _) => status := 123
  if isStuck then
    complain name "argument line too long".toList
    return 1
  return status)

end LuaTree.Shell.Utility

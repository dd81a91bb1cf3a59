import LuaTree.Shell.Utility.Edit.Reader
import LuaTree.Shell.Utility.Feed
import LuaTree.Shell.Utility.Copies

/-!
# Editing lines

`sed` takes line after line, runs the script on each and writes what has become of it. What is to stand
behind a line waits until the line has been written.
-/

namespace LuaTree.Shell

namespace Edit

open Run Utility

/-! ## Searching -/

def Search.subject (s : Search) (t : Array Char) : Regular.Subject :=
  { chars := t, folds := s.folds, hasLines := s.hasLines }

/-- Puts in text as the casing asks for. -/
structure Cased where
  read : Raw -- what has been put in, the last character first
  all : Casing := .same
  next : Casing := .same

def Cased.add (c : Cased) (t : Raw) : Cased :=
  let whole (d : Char) : Char := match c.all with
    | .upper => d.toUpper
    | .lower => d.toLower
    | _ => d
  match t with
  | [] => c
  | d :: rest =>
    let first := match c.next with
      | .nextUpper => d.toUpper
      | .nextLower => d.toLower
      | _ => whole d
    { c with read := (rest.map whole).reverse ++ first :: c.read, next := .same }

def Cased.insert (s : Regular.Subject) (m : Regular.Match) (c : Cased) : Insert → Cased
  | .text t => c.add t
  | .part n => c.add (m.part s n)
  | .casing k =>
    match k with
    | .upper | .lower => { c with all := k, next := .same }
    | .same => { c with all := .same, next := .same }
    | .nextUpper | .nextLower => { c with next := k }

/-- What comes of a change from a place on; `count` matches have been seen, and the last one ended at
`ended?`. -/
def Change.from_ (c : Change) (r : Regular) (s : Regular.Subject) :
    (fuel : Nat) → (place count : Nat) → (ended? : Option Nat) → (done : Raw) → Raw × Bool
  | 0, _, _, _, done => (done.reverse, false)
  | fuel + 1, place, count, ended?, done =>
    let upTo (a b : Nat) : Raw := (s.chars.extract a b).toList
    let ended : Raw × Bool := (done.reverse ++ upTo place s.chars.size, false)
    match if place ≤ s.chars.size then r.find? s place else none with
    | none => ended
    | some m =>
      let isEmpty : Bool := m.start = m.finish
      let before := (upTo place m.start).reverse ++ done
      -- the character behind an empty match is passed over
      let passed := if isEmpty then (upTo m.finish (m.finish + 1)).reverse else []
      let next := if isEmpty then m.finish + 1 else m.finish
      if isEmpty ∧ ended? = some m.start then c.from_ r s fuel next count none (passed ++ before)
      else
        let count := count + 1
        if count < c.first then
          c.from_ r s fuel next count (some m.finish) (passed ++ (upTo m.start m.finish).reverse ++ before)
        else
          let put := (c.inserts.foldl (Cased.insert s m) { read := [] }).read
          if c.isGlobal then
            let (t, _) := c.from_ r s fuel next count (some m.finish) (passed ++ put ++ before)
            (t, true)
          else ((put ++ before).reverse ++ upTo m.finish s.chars.size, true)

/-! ## State -/

/-- Something that waits until the line has been written. -/
inductive Waiting where
  | text (t : Raw)
  | file (name : Raw)
  deriving Inhabited

/-- How `sed` has been called. -/
structure Manner where
  script : Script
  isQuiet : Bool := false -- whether lines are written only when a command says so
  isSeparate : Bool := false -- whether each file has its own first and last line
  -- what is added to the names of files that are kept as they were; without an answer, nothing is
  -- changed in place
  inPlace? : Option Raw := none
  ending : Char := '\n'
  width : Nat := 70 -- how long lines may get where all characters are made visible

/-- Where the work has got to. -/
structure State where
  feed : Feed
  ahead? : Option (Option Piecemeal) := none -- the line that comes next, if it has been looked at
  line : Raw := []
  isComplete : Bool := true
  aside : Raw := []
  isAsideComplete : Bool := true
  number : Nat := 0
  file : Nat := 0
  name : Raw := ['-']
  isChanged : Bool := false
  waiting : List Waiting := [] -- what waits until the line has been written, the last first
  -- the commands that are within their range of lines, each with the last line if it is known
  active : List (Nat × Option Nat) := []
  search? : Option Search := none -- what has been searched for last
  -- where the end of the last line that has been written is still missing
  unended : List Target := []
  sources : List (Raw × Feed) := [] -- files from which lines are taken one by one
  isReplacing : Bool := false
  deriving Inhabited

/-- A computation on the state. -/
abbrev Editing := StateT State Run

def targetDescriptor (s : Script) (name : Raw) : Nat := 9200 + s.targets.idxOf name

/-- The descriptor of a file that replaces another one. -/
def replacement : Nat := 9190

/-- Writes a text to a target; the end of the line before it comes first if it is missing. -/
def output (k : Manner) (target : Target) (t : Raw) (isComplete : Bool := true) : Editing Unit := do
  let s ← get
  let missing : Raw := if s.unended.contains target then [k.ending] else []
  let others := s.unended.filter (· ≠ target)
  set { s with unended := if isComplete then others else target :: others }
  let t := missing ++ t
  if t = [] then return ()
  match target with
  | .output => if s.isReplacing then discard (writeText replacement t) else putText t 4
  | .errors => discard (writeText 2 t)
  | .file name => discard (writeText (targetDescriptor k.script name) t)

def outputLine (k : Manner) (target : Target) (t : Raw) (isComplete : Bool) : Editing Unit :=
  output k target (if isComplete then t ++ [k.ending] else t) isComplete

/-- Says that a file cannot be read; answers with the status. -/
def refuse (k : Manner) (isOpen : Bool) (file : Raw) (e : IoError) : Run Nat := do
  let name := "sed".toList
  if e = .os .isDirectory ∧ k.inPlace?.isSome then
    complain name ("couldn't edit ".toList ++ file ++ ": not a regular file".toList)
    return 4
  else if isOpen then
    complain name ("read error on ".toList ++ file ++ ": ".toList ++ (refusalText e).toList)
    throw (.exit 4)
  else
    complain name ("can't read ".toList ++ file ++ ": ".toList ++ (refusalText e).toList)
    return 2

/-! ## Taking lines -/

/-- The next line, which stays. -/
def ahead (k : Manner) : Editing (Option Piecemeal) := do
  let s ← get
  match s.ahead? with
  | some line? => return line?
  | none =>
    let (line?, feed) ← monadLift (s.feed.next? (cutLine k.ending) (refuse k) rounds)
    modify fun s => { s with feed, ahead? := some line? }
    return line?

def isLast (k : Manner) : Editing Bool := do
  match ← ahead k with
  | none => return true
  | some l => return k.isSeparate && decide (l.file ≠ (← get).file)

def writeWaiting (k : Manner) : Editing Unit := do
  let s ← get
  set { s with waiting := [] }
  for w in s.waiting.reverse do
    match w with
    | .text t => output k .output t
    | .file name =>
      let file := if name = "/dev/stdin".toList then ['-'] else name
      let data ← monadLift (do
        match ← inputOf file with
        | .ok data => return Raw.ofBytes data
        | .error _ => return [] : Run Raw)
      if data ≠ [] then output k .output data

/-- The commands that are within their range from the start. -/
def begun (s : Script) : List (Nat × Option Nat) :=
  s.edits.toList.zipIdx.filterMap fun (e, n) =>
    match e.first? with
    | some (.line 0) => some (n, none)
    | _ => none

def keptName (suffix name : Raw) : Raw :=
  let base := (name.reverse.takeWhile (· ≠ '/')).reverse
  let dir := name.take (name.length - base.length)
  let kept := if suffix.contains '*' then suffix.flatMap fun c => if c = '*' then base else [c]
    else base ++ suffix
  if kept.contains '/' then kept else dir ++ kept

/-- The name of the file that is written instead of another one. -/
def temporaryName (name : Raw) : Raw :=
  let base := (name.reverse.takeWhile (· ≠ '/')).reverse
  name.take (name.length - base.length) ++ "sedWkQx3p".toList

/-- Puts the file that has been written in the place of the one it replaces. -/
def replace (k : Manner) : Editing Unit := do
  let s ← get
  match k.inPlace? with
  | some suffix =>
    if s.isReplacing then
      set { s with isReplacing := false, unended := [] }
      let move (a b : Raw) : Run Unit := discard (update (moved (Raw.path a) (Raw.path b)))
      monadLift (do
        setDescriptor replacement none
        if suffix ≠ [] then move s.name (keptName suffix s.name)
        move (temporaryName s.name) s.name : Run Unit)
  | none => return ()

/-- Begins to write a file that is to replace another one. -/
def beginReplacing (name : Raw) : Editing Unit := do
  let mode ← monadLift (do
    let m ← get
    return match m.store.stat? m.environment.cwd (Raw.path name) with
      | .ok (_, .file i) => (m.store.inode i).mode
      | _ => 0o644 : Run Nat)
  let temporary := temporaryName name
  let c? ← monadLift (openOutput .anew (Raw.path temporary) : Run (Except IoError Channel))
  match c? with
  | .error e =>
    monadLift (do
      complain "sed".toList ("couldn't open temporary file ".toList
        ++ (if name.contains '/' then [] else "./".toList) ++ temporary ++ ": ".toList
        ++ (refusalText e).toList)
      throw (.exit 4) : Run Unit)
  | .ok c =>
    monadLift (do
      setDescriptor replacement (some c)
      let m ← get
      match m.store.stat? m.environment.cwd (Raw.path temporary) with
      | .ok (_, .file i) => set { m with store := m.store.setInode i { m.store.inode i with mode } }
      | _ => return () : Run Unit)
    modify fun s => { s with isReplacing := true }

/-- A text of the script as it is written: its last line ends as all lines do. -/
def Manner.ended (k : Manner) (t : Raw) : Raw :=
  if t.getLast? = some '\n' then t.dropLast ++ [k.ending] else t

/-- Takes the next line; it is added to the one in hand, or takes its place. Answers whether there was one. -/
def takeLine (k : Manner) (adds : Bool) : Editing Bool := do
  writeWaiting k
  match ← ahead k with
  | none => return false
  | some l =>
    let s ← get
    if l.file ≠ s.file ∧ k.isSeparate then
      replace k
      modify fun s =>
        { s with
          number := 0, active := begun k.script, file := l.file, name := l.name, sources := []
          aside := [], isAsideComplete := true }
      if k.inPlace?.isSome then beginReplacing l.name
    modify fun s =>
      { s with
        ahead? := none, file := l.file, name := l.name
        line := (if adds then s.line ++ k.ending :: l.text else l.text)
        isComplete := l.isComplete, number := s.number + 1, isChanged := false }
    return true

/-! ## Addresses -/

/-- The regular expression to be searched for, and how; the last one if none is given. -/
def resolve (search : Search) : Editing (Regular × Search) := do
  let s ← get
  let whole? : Option Search := if search.regex?.isSome then some search else s.search?
  match whole? with
  | some w =>
    match w.regex? with
    | some r =>
      set { s with search? := some w }
      return (r, w)
    | none => return (.nothing, w)
  | none =>
    monadLift (do
      complain "sed".toList "-e expression #1, char 0: no previous regular expression".toList
      throw (.exit 1) : Run Unit)
    return (.nothing, search)

def fits (k : Manner) : Address → Editing Bool
  | .line n => return (← get).number = n
  | .last => isLast k
  | .found search => do
    let (r, w) ← resolve search
    return r.occurs (w.subject (← get).line.toArray)
  | .step first step => do
    let n := (← get).number
    return first ≤ n && (n - first) % step = 0
  | .more _ | .multiple _ => return false

/-- Whether a command is for the line in hand. -/
def selects (k : Manner) (place : Nat) (e : Instruction) : Editing Bool := do
  let activate (end_ : Option Nat) : Editing Unit :=
    modify fun s => { s with active := (place, end_) :: s.active.filter (·.1 ≠ place) }
  let deactivate : Editing Unit := modify fun s => { s with active := s.active.filter (·.1 ≠ place) }
  let isMeant : Bool ← do
    match e.first?, e.last? with
    | none, _ => pure true
    | some a, none => fits k a
    | some a, some b =>
      let n := (← get).number
      let upTo (last : Nat) : Editing Bool := do
        if n < last then activate (some last)
        return true
      match (← get).active.lookup place with
      | some (some last) =>
        if last ≤ n then deactivate
        if n ≤ last then pure true else fits k a
      | some none =>
        if ← fits k b then deactivate
        pure true
      | none =>
        if !(← fits k a) then pure false
        else
          match b with
          | .line last => upTo last
          | .more m => upTo (n + m)
          | .multiple m => upTo (if m = 0 then n else (n / m + 1) * m)
          | _ =>
            activate none
            pure true
  return isMeant != e.isInverted

/-! ## Commands -/

/-- A text with all characters visible, cut into lines. -/
def visible (width : Nat) (t : Raw) : Raw :=
  let one (c : Char) : Raw :=
    match c with
    | '\\' => ['\\', '\\']
    | c => if Quote.isShown c then [c] else Quote.sequence c
  let (read, _) := t.foldl (fun (read, used) c =>
    let o := one c
    if width ≠ 0 ∧ width - 1 < used + o.length then (o.reverse ++ '\n' :: '\\' :: read, o.length)
    else (o.reverse ++ read, used + o.length)) (([] : Raw), 0)
  read.reverse ++ ['$', '\n']

/-- How the script goes on behind a command. -/
inductive Flow where
  | next
  | go (place : Nat)
  | done -- the line is done with; it is written if nothing forbids that
  | dropped
  | again -- the script starts again with what is left of the line
  | quit (status : Nat) (isQuiet : Bool)

def change (k : Manner) (c : Change) : Editing Unit := do
  let (r, w) ← resolve c.search
  let s ← get
  let subject := w.subject s.line.toArray
  let (t, isChanged) := c.from_ r subject (2 * subject.chars.size + 4) 0 0 none []
  if isChanged then
    set { s with line := t, isChanged := true }
    if c.prints then outputLine k .output t s.isComplete
    match c.target? with
    | some target => outputLine k target t s.isComplete
    | none => return ()

/-- The next line of a file from which lines are taken one by one. -/
def lineFrom (k : Manner) (name : Raw) : Editing (Option Piecemeal) := do
  let s ← get
  let file := if name = "/dev/stdin".toList then ['-'] else name
  let feed := (s.sources.lookup name).getD { descriptor := 9300 + s.sources.length, files := [file] }
  let (line?, feed) : Option Piecemeal × Feed ←
    monadLift (feed.next? (cutLine k.ending) (fun _ _ _ => return 0) rounds)
  let others : List (Raw × Feed) := s.sources.filter fun p => p.1 ≠ name
  set { s with sources := others ++ [(name, feed)] }
  return line?

def act (k : Manner) (place : Nat) (e : Instruction) : Editing Flow := do
  let s ← get
  let print : Editing Unit := outputLine k .output s.line s.isComplete
  let wait (w : Waiting) : Editing Flow := do
    set { s with waiting := w :: s.waiting }
    return .next
  let jump (goal? : Option Nat) : Flow := match goal? with
    | some goal => .go goal
    | none => .done
  let first := s.line.takeWhile (· ≠ k.ending)
  match e.verb with
  | .enter _ | .exit | .label => return .next
  | .jump goal? => return jump goal?
  | .jumpIf isChanged goal? =>
    set { s with isChanged := false }
    return if s.isChanged = isChanged then jump goal? else .next
  | .before t =>
    output k .output (k.ended t)
    return .next
  | .after t => wait (.text t)
  | .instead t =>
    if (s.active.lookup place).isNone ∨ e.isInverted then output k .output (k.ended t)
    return .dropped
  | .delete => return .dropped
  | .deleteFirst =>
    if first.length = s.line.length then return .dropped
    set { s with line := s.line.drop (first.length + 1) }
    return .again
  | .takeBack =>
    set { s with line := s.aside, isComplete := s.isAsideComplete }
    return .next
  | .addBack =>
    set { s with line := s.line ++ k.ending :: s.aside, isComplete := s.isAsideComplete }
    return .next
  | .putAside =>
    set { s with aside := s.line, isAsideComplete := s.isComplete }
    return .next
  | .addAside =>
    set { s with aside := s.aside ++ k.ending :: s.line, isAsideComplete := s.isComplete }
    return .next
  | .exchange =>
    set { s with
      line := s.aside, aside := s.line, isComplete := s.isAsideComplete, isAsideComplete := s.isComplete }
    return .next
  | .show width? =>
    output k .output (k.ended (visible (width?.getD k.width) s.line))
    return .next
  | .next =>
    if ← isLast k then
      if (← ahead k).isNone then return .quit 0 false
    if !k.isQuiet then print
    if ← takeLine k false then return .next
    return .quit 0 true
  | .addNext =>
    if ← isLast k then
      if (← ahead k).isNone then return .quit 0 false
    if ← takeLine k true then return .next
    return .quit 0 true
  | .print =>
    print
    return .next
  | .printFirst =>
    outputLine k .output first true
    return .next
  | .number =>
    output k .output (Raw.ofNat s.number ++ [k.ending])
    return .next
  | .fileName =>
    output k .output (s.name ++ [k.ending])
    return .next
  | .clear =>
    set { s with line := [] }
    return .next
  | .quit status isQuiet => return .quit status isQuiet
  | .insertFile name => wait (.file name)
  | .insertLine name =>
    match ← lineFrom k name with
    | some l =>
      let t := if l.isComplete then l.text ++ [k.ending] else l.text
      modify fun s => { s with waiting := .text t :: s.waiting }
    | none => pure ()
    return .next
  | .write target isFirst =>
    if isFirst then outputLine k target first true else outputLine k target s.line s.isComplete
    return .next
  | .change c =>
    change k c
    return .next
  | .map pairs =>
    set { s with line := s.line.map fun c => (pairs.lookup c).getD c }
    return .next

def run (k : Manner) : (fuel : Nat) → (place : Nat) → Editing Flow
  | 0, _ => return .done
  | fuel + 1, place => do
    match k.script.edits[place]? with
    | none => return .done
    | some e =>
      if !(← selects k place e) then
        match e.verb with
        | .enter finish => run k fuel finish
        | _ => run k fuel (place + 1)
      else
        match ← act k place e with
        | .next => run k fuel (place + 1)
        | .go goal =>
          monadLift (spend 1 : Run Unit)
          run k fuel goal
        | flow => return flow

/-- Runs the script on all lines; answers with the status. -/
def cycles (k : Manner) : (fuel : Nat) → (isFresh : Bool) → Editing Nat
  | 0, _ => return 0
  | fuel + 1, isFresh => do
    let isThere ← if isFresh then takeLine k false else pure true
    if !isThere then return 0
    let write : Editing Unit := do
      let s ← get
      if !k.isQuiet then outputLine k .output s.line s.isComplete
    match ← run k rounds 0 with
    | .quit status isQuiet =>
      if !isQuiet then write
      writeWaiting k
      let s ← get
      monadLift (do
        let back := match s.ahead? with
          | some (some l) => l.text.length + (if l.isComplete then 1 else 0)
          | _ => 0
        if s.feed.isOpen then unread s.feed.descriptor (s.feed.rest.length + back) : Run Unit)
      return status
    | .again =>
      writeWaiting k
      cycles k fuel false
    | .dropped =>
      writeWaiting k
      cycles k fuel true
    | _ =>
      write
      writeWaiting k
      cycles k fuel true

end Edit

namespace Utility

open Run Edit

/-- The options of `sed`. -/
def sedOptions : OptionTable where
  flags := "nrEsuzp\x03\x04\x05"
  valued := "efl"
  optional := "i"
  long := [("quiet", 'n'), ("silent", 'n'), ("expression", 'e'), ("file", 'f'), ("regexp-extended", 'E'),
    ("in-place", 'i'), ("separate", 's'), ("unbuffered", 'u'), ("null-data", 'z'), ("line-length", 'l'),
    ("posix", '\x03'), ("sandbox", '\x04'), ("follow-symlinks", '\x05'), ("zero-terminated", 'z')]

/-- How `sed` is used. -/
def sedUsage : Raw :=
  "Usage: sed [OPTION]... \x7bscript-only-if-no-other-script\x7d [input-file]...".toList

/-- The parts of the script of `sed`: from its options, or the first operand. -/
def scriptParts (o : Options) : Run (Except Nat (List (Part × Raw) × List Raw)) := do
  let given := o.given.filter fun p => p.1 = 'e' || p.1 = 'f'
  match given, o.operands with
  | [], [] =>
    complainLine sedUsage
    return .error 1
  | [], script :: files => return .ok ([(.argument 1, script)], files)
  | given, files =>
    let mut parts := #[]
    let mut number := 0
    for (c, t) in given do
      if c = 'e' then
        number := number + 1
        parts := parts.push (Part.argument number, t)
      else
        match ← inputOf t with
        | .ok data =>
          let text := Raw.ofBytes data
          let text := if text.getLast? = some '\n' then text.dropLast else text
          parts := parts.push (Part.file t, text)
        | .error e =>
          complain "sed".toList ("couldn't open file ".toList ++ t ++ ": ".toList ++ (refusalText e).toList)
          return .error 4
    return .ok (parts.toList, files)

/-- `sed`: edits lines. -/
def sed : Utility := fun name arguments => do
  match sedOptions.read {} arguments with
  | .error message =>
    complain name message
    complainLine sedUsage
    return 1
  | .ok o =>
    match ← scriptParts o with
    | .error status => return status
    | .ok (parts, files) =>
      match Script.read (o.has 'E' || o.has 'r') parts with
      | .error refusal =>
        complain name refusal.message
        return match refusal with
          | .mistake _ => 1
          | .noLabel _ => 4
      | .ok script =>
        for target in script.targets do
          match ← openOutput .anew (Raw.path target) with
          | .ok c => setDescriptor (targetDescriptor script target) (some c)
          | .error e =>
            complain name ("couldn't open file ".toList ++ target ++ ": ".toList ++ (refusalText e).toList)
            return 4
        let inPlace? := o.value? 'i'
        let k : Manner :=
          { script, inPlace?
            isQuiet := o.has 'n' || script.isQuiet
            isSeparate := o.has 's' || inPlace?.isSome
            ending := if o.has 'z' then '\x00' else '\n'
            width := ((o.value? 'l').bind Raw.nat?).getD 70 }
        let feed : Feed := { descriptor := inputDescriptor, files := inputFiles files }
        let (status, s) ← (do
          let status ← cycles k rounds true
          replace k
          return status : Editing Nat).run { feed, active := begun script }
        return if status = 0 then s.feed.status else status

end Utility

end LuaTree.Shell

import LuaTree.Shell.Utility.Find.Basic
import LuaTree.Shell.Utility.Listing
import LuaTree.Shell.Utility.Starting

/-!
# Searching for files

`find` goes through all that is below some paths and does with every file what an expression tells it to. What
is in a directory comes in the order of the names, behind the directory or, if asked for, before it.
-/

namespace LuaTree.Shell.Find

open Run Utility

/-- A file that has been come to. -/
structure Site where
  origin : Raw -- the path that the search has begun with
  path : Raw
  name : Raw
  depth : Nat -- how many steps it is away from the beginning
  loc : Location
  entry : Entry
  deriving Inhabited

namespace Site

def directory (x : Site) : Raw :=
  let cut := withoutSlashes x.path
  if cut.contains '/' then
    let dir := (cut.reverse.dropWhile (· ≠ '/')).drop 1
    dir.reverse
  else if x.depth = 0 ∧ cut ≠ x.path then cut
  else ['.']

/-- The last name of the path, with the slashes behind it. -/
def ending (x : Site) : Raw :=
  let cut := withoutSlashes x.path
  (cut.reverse.takeWhile (· ≠ '/')).reverse ++ x.path.drop cut.length

/-- The path from where the search has begun. -/
def steps (x : Site) : Raw :=
  if x.depth = 0 then []
  else
    let rest := x.path.drop x.origin.length
    if rest.head? = some '/' then rest.drop 1 else rest

/-- The name under which the file is found in the directory that holds it. -/
def inPlace (x : Site) : Raw :=
  let last := lastName x.path
  if last.head? = some '/' then last else '.' :: '/' :: last

end Site

def typeLetter (e : Entry) : Char := match e with
  | .file _ => 'f'
  | e => kindLetter e

/-- How far a search has come. -/
structure Progress where
  status : Nat := 0
  -- what has been gathered for programs, by their numbers and the directories in which they run
  gathered : Array (Nat × Option Raw × List Raw) := #[]
  prunes : Bool := false -- whether what is below the file is passed over
  isOver : Bool := false

/-- A step of a search. -/
abbrev Quest := StateT Progress Run

/-- How a search is made. -/
structure Search where
  start : Starter
  manner : Manner
  term : Term

namespace Search

/-- Says that something went wrong with a file. -/
def lament (t : Raw) : Quest Unit := do
  complain "find".toList t
  modify fun s => { s with status := 1 }

/-- What is found under a path; `isGiven` tells whether it is one of those that the search begins with. -/
def entry? (k : Search) (isGiven : Bool) (p : Raw) : Run (Except IoError (Location × Entry)) := do
  let follows : Bool := match k.manner.follows with
    | some all => all || isGiven
    | none => false
  if !follows then return ← entryAt p
  match ← targetOf p with
  | .ok found => return .ok found
  | .error _ => entryAt p

/-- What a field of a text about a file tells. -/
def field (s : Store) (cwd : Location) (x : Site) (letter : Char) : Raw :=
  match letter with
  | 'p' => x.path
  | 'f' => x.ending
  | 'h' => x.directory
  | 'P' => x.steps
  | 'H' => x.origin
  | 'd' => Raw.ofNat x.depth
  | 's' => Raw.ofNat (sizeOf s x.entry)
  | 'y' => [typeLetter x.entry]
  | 'Y' =>
    match s.stat? cwd (Raw.path x.path) with
    | .ok (_, e) => [typeLetter e]
    | .error e => if e = .os .tooManyLinks then ['L'] else ['N']
  | 'l' =>
    match x.entry with
    | .link target => Raw.ofPath target
    | _ => []
  | 'm' => Nat.toDigits 8 (s.modeOf x.entry)
  | 'n' => Raw.ofNat (linksOf s x.loc x.entry)
  | 'M' => modeShown s x.entry
  | 'u' | 'g' => ownerName
  | 'U' | 'G' => ['0']
  | 'k' => Raw.ofNat (blocksOf s x.entry)
  | 'b' => Raw.ofNat (2 * blocksOf s x.entry)
  | 'i' => Raw.ofNat (1000 + x.loc.length)
  | _ => []

/-- A text about a file. -/
def described (s : Store) (cwd : Location) (x : Site) : List Piece → Raw
  | [] | .stop :: _ => []
  | .text t :: rest => t ++ described s cwd x rest
  | .field spec c :: rest =>
    let t := field s cwd x c
    let isNumber : Bool := c = 'd' || c = 'm'
    (if isNumber then spec.ofDigits [] t else spec.ofText t) ++ described s cwd x rest

def answer (x : Site) (q : Question) : Run Bool := do
  let m ← get
  let s := m.store
  let cwd := m.environment.cwd
  let fits (p : List Pattern.Item) (folds : Bool) (t : Raw) : Bool :=
    if folds then Pattern.accepts p (t.map Char.toLower) else Pattern.accepts p t
  let target? : Option Entry := ((s.stat? cwd (Raw.path x.path)).toOption).map (·.2)
  match q with
  | .known b => return b
  | .name p folds => return fits p folds x.name
  | .path p folds => return fits p folds x.path
  | .target p folds =>
    match x.entry with
    | .link t => return fits p folds (Raw.ofPath t)
    | _ => return false
  | .regular r folds => return r.spans { chars := x.path.toArray, folds }
  | .kind letters follows =>
    return letters.contains (typeLetter (if follows then target?.getD x.entry else x.entry))
  | .empty =>
    match x.entry with
    | .file i => return (s.inode i).data.isEmpty
    | .dir _ => return (s.names x.loc).isEmpty
    | _ => return false
  | .size m unit => return m.fits ((sizeOf s x.entry + unit - 1) / unit)
  | .permission mode b =>
    let has := s.modeOf x.entry
    return match b with
      | .exactly => has = mode
      | .all => has &&& mode = mode
      | .any => mode = 0 || has &&& mode != 0
  | .links m => return m.fits (linksOf s x.loc x.entry)
  | .age span unit => return span.fitsAge (m.now - secondOfTick (m.timeOf x.entry)) unit
  | .newer ticks => return ticks < m.timeOf x.entry
  | .same loc =>
    let isSame : Bool := match x.entry, s.entry? loc with
      | .file i, some (.file j) => i == j
      | _, _ => false
    return x.loc = loc || isSame
  | .access a => return target?.any (s.allows · a)

/-- Starts a program in some directory; answers whether all went well. -/
def started (k : Search) (dir? : Option Raw) (words : List Raw) : Run Bool := do
  let e ← environment
  match dir? with
  | some dir =>
    match (← get).store.stat? e.cwd (Raw.path dir) with
    | .ok (loc, .dir _) => modifyEnvironment fun e => { e with cwd := loc }
    | _ => pure ()
  | none => pure ()
  match words with
  | [] => return true
  | program :: arguments =>
    let ended ← k.start false program arguments
    modifyEnvironment fun now => { now with cwd := e.cwd }
    match ended with
    | .ok ending => return ending.status = 0
    | .error err =>
      complain "find".toList (Quote.shown program ++ ": ".toList ++ err.text.toList)
      return false

/-- Does something with a file; tells whether that counts as true. -/
def done (k : Search) (x : Site) (a : Action) : Quest Bool := do
  match a with
  | .print ending =>
    putText (x.path ++ ending)
    return true
  | .format pieces =>
    let m ← getThe Machine
    putText (described m.store m.environment.cwd x pieces)
    return true
  | .run words inPlace =>
    let place := if inPlace then x.inPlace else x.path
    let put (t : Raw) : Raw := substituted "\x7b\x7d".toList place (t.length + 1) t
    return ← k.started (if inPlace then some x.directory else none) (words.map put)
  | .gather number inPlace =>
    let place := if inPlace then x.inPlace else x.path
    let dir? := if inPlace then some x.directory else none
    modify fun s =>
      match s.gathered.findIdx? fun g => g.1 = number && g.2.1 = dir? with
      | some n => { s with gathered := s.gathered.modify n fun g => (g.1, g.2.1, place :: g.2.2) }
      | none => { s with gathered := s.gathered.push (number, dir?, [place]) }
    return true
  | .remove =>
    if x.path = ['.'] then return true
    let removed ← updateAt (Raw.path x.path) fun s cwd =>
      if x.entry.isDir then s.removeDir cwd (Raw.path x.path) else s.removeFile cwd (Raw.path x.path)
    match removed with
    | .ok () => return true
    | .error e =>
      lament ("cannot delete ".toList ++ Quote.shown x.path ++ ": ".toList ++ (refusalText e).toList)
      return false
  | .prune =>
    modify fun s => { s with prunes := true }
    return true
  | .quit =>
    modify fun s => { s with isOver := true }
    return true

/-- Finds out whether an expression holds for a file, and does what it tells to be done on the way. -/
def holds (k : Search) (x : Site) : Term → Quest Bool
  | .ask q => answer x q
  | .act a => k.done x a
  | .no t => return !(← holds k x t)
  | .both a b => do
    if !(← holds k x a) || (← get).isOver then return false
    holds k x b
  | .either a b => do
    if (← holds k x a) || (← get).isOver then return true
    holds k x b
  | .after a b => do
    discard (holds k x a)
    if (← get).isOver then return true
    holds k x b

/-- Goes to a file and to all that is below it; `above` are the directories on the way. -/
def visit (k : Search) : (fuel : Nat) → (above : List (Location × Raw)) → Site → Quest Unit
  | 0, _, _ => return ()
  | fuel + 1, above, x => do
    let look : Quest Unit := do
      modify fun s => { s with prunes := false }
      if k.manner.shallowest ≤ x.depth then discard (k.holds x k.term)
    match (if x.entry.isDir then above.find? fun a => a.1 = x.loc else none) with
    | some (_, path) =>
      lament ("File system loop detected; ".toList ++ Quote.shown x.path
        ++ " is part of the same file system loop as ".toList ++ Quote.shown path ++ ['.'])
    | none =>
    if !k.manner.depthFirst then look
    let s ← get
    let isDeepest : Bool := k.manner.deepest?.any (· ≤ x.depth)
    let passes : Bool := s.isOver || isDeepest || (s.prunes && !k.manner.depthFirst)
    if x.entry.isDir && !passes then
      let store := (← getThe Machine).store
      if !(store.allows x.entry .read) then
        lament (Quote.shown x.path ++ ": Permission denied".toList)
      else
        for n in store.names x.loc do
          if !(← get).isOver then
            let name := Raw.ofPath n
            let path := inside x.path name
            match ← k.entry? false path with
            | .ok (loc, entry) =>
              visit k fuel ((x.loc, x.path) :: above)
                { x with path, name, depth := x.depth + 1, loc, entry }
            | .error e => lament (Quote.shown path ++ ": ".toList ++ (refusalText e).toList)
    if k.manner.depthFirst ∧ !(← get).isOver then look

def below (k : Search) (origin : Raw) : Quest Unit := do
  if (← get).isOver then return
  match ← k.entry? true origin with
  | .error e => lament (Quote.shown origin ++ ": ".toList ++ (refusalText e).toList)
  | .ok (loc, entry) =>
    let name := let last := lastName origin
      if withoutSlashes origin = [] then ['/'] else last
    k.visit 4096 [] { origin, path := origin, name, depth := 0, loc, entry }

/-- Starts the programs for which paths have been gathered. -/
def finish (k : Search) : Quest Unit := do
  for (number, dir?, paths) in (← get).gathered do
    if !(← k.started dir? (k.manner.programs.getD number [] ++ paths.reverse)) then
      modify fun s => { s with status := 1 }

end Search

def leading (follows : Option Bool) : List Raw → Option Bool × List Raw
  | ['-', 'H'] :: rest => leading (some false) rest
  | ['-', 'L'] :: rest => leading (some true) rest
  | ['-', 'P'] :: rest => leading none rest
  | ['-', '-'] :: rest => (follows, rest)
  | ('-' :: 'O' :: level) :: rest =>
    if level.all Char.isDigit ∧ level ≠ [] then leading follows rest else (follows, ('-' :: 'O' :: level) :: rest)
  | rest => (follows, rest)

def beginsTerm (a : Raw) : Bool := (a.head? = some '-' && 1 < a.length) || a = ['('] || a = ['!']

/-- `find`: searches for files. -/
def find : StartingUtility := fun start _ arguments => do
  let (follows, arguments) := leading none arguments
  let paths := arguments.takeWhile fun a => !beginsTerm a
  let m ← get
  let reading : Reading :=
    { rest := arguments.drop paths.length, manner := { follows }, store := m.store, cwd := m.environment.cwd,
      timeOf := m.timeOf, now := m.now }
  match Reader.whole.run reading with
  | .error message =>
    complain "find".toList message
    return 1
  | .ok (term, read) =>
    for t in read.warnings.reverse do complain "find".toList ("warning: ".toList ++ t)
    let term := if term.acts then term else .both term (.act (.print ['\n']))
    let k : Search := { start, manner := read.manner, term }
    let search : Quest Unit := do
      for p in if paths = [] then [['.']] else paths do k.below p
      k.finish
    let ((), s) ← search.run {}
    return s.status

end LuaTree.Shell.Find

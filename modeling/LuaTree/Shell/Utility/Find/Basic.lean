import LuaTree.Shell.Format
import LuaTree.Shell.Mode
import LuaTree.Shell.Pattern
import LuaTree.Shell.Regular.Reader
import LuaTree.Shell.Utility.Date

/-!
# Expressions about files

What `find` asks about each file and does with it: questions and actions, put together by signs that skip what
is not needed to know the answer.
-/

namespace LuaTree.Shell.Find

/-- How a number is compared. -/
inductive Measure where
  | exactly (n : Nat)
  | above (n : Nat)
  | below (n : Nat)
  deriving DecidableEq, Inhabited

def Measure.fits : Measure → Nat → Bool
  | .exactly n, k => k = n
  | .above n, k => n < k
  | .below n, k => k < n

def Measure.read? : Raw → Option Measure
  | '+' :: t => (Raw.nat? t).map .above
  | '-' :: t => (Raw.nat? t).map .below
  | t => (Raw.nat? t).map .exactly

/-- Whether an age fits, in some unit; what has been begun counts if there is to be more of it, or exactly as
much, and if the unit is short. -/
def Measure.fitsAge (m : Measure) (seconds : Int) (unit : Nat) : Bool :=
  let whole := seconds / unit
  let begun := if unit < 3600 then -(-seconds / unit) else whole
  match m with
  | .exactly n => begun = n
  | .above n => (n : Int) < begun
  | .below n => whole < n

/-- How permissions are compared. -/
inductive Bits where
  | exactly
  | all -- they are at least these
  | any
  deriving DecidableEq, Inhabited

/-- A question about a file. -/
inductive Question where
  | known (b : Bool)
  | name (p : List Pattern.Item) (folds : Bool)
  | path (p : List Pattern.Item) (folds : Bool)
  | target (p : List Pattern.Item) (folds : Bool) -- does what a link leads to fit a pattern?
  | regular (r : Regular) (folds : Bool) -- does the whole path match a regular expression?
  | kind (letters : List Char) (follows : Bool)
  | empty -- is there nothing in it?
  | size (m : Measure) (unit : Nat) -- how large is it, in some unit?
  | permission (mode : Nat) (b : Bits)
  | links (m : Measure)
  | age (m : Measure) (unit : Nat) -- how old is it, in some unit of seconds?
  | newer (ticks : Int) -- has it been written to after a moment, given in ticks?
  | same (loc : Location) -- is it the same as another file?
  | access (a : Access)
  deriving Inhabited

/-- A piece of a text about a file. -/
inductive Piece where
  | text (t : Raw)
  | field (s : Format.Spec) (letter : Char)
  | stop -- the text ends here
  deriving Inhabited

/-- What can be done with a file. -/
inductive Action where
  | print (ending : Raw) -- its path is written, followed by an ending
  | format (pieces : List Piece) -- a text about it is written
  | run (program : List Raw) (inPlace : Bool) -- a program is started with its path
  -- it is gathered; a program is started with all that have been gathered under the number
  | gather (number : Nat) (inPlace : Bool)
  | remove
  | prune -- what is below it is passed over
  | quit
  deriving Inhabited

/-- An expression. -/
inductive Term where
  | ask (q : Question)
  | act (a : Action)
  | no (t : Term)
  | both (a b : Term) -- the second one if the first one is true
  | either (a b : Term) -- the second one if the first one is not true
  | after (a b : Term) -- both, of which the second one counts
  deriving Inhabited

namespace Term

/-- Whether something is done that makes it needless to write paths. -/
def acts : Term → Bool
  | .ask _ => false
  | .act .prune | .act .quit => false
  | .act _ => true
  | .no t => t.acts
  | .both a b | .either a b | .after a b => a.acts || b.acts

end Term

/-- What holds for a whole search. -/
structure Manner where
  deepest? : Option Nat := none -- how deep it goes at most
  shallowest : Nat := 0 -- from which depth on files count
  depthFirst : Bool := false -- whether what is in a directory comes before it
  follows : Option Bool := none -- whether links are followed: those given, or all
  dialect : String := "emacs" -- how regular expressions are written
  programs : Array (List Raw) := #[]

/-- What is wrong with the arguments. -/
abbrev Fault := Raw

/-- What has been read of the arguments. -/
structure Reading where
  rest : List Raw
  manner : Manner := {} -- what holds for the whole search
  last : Raw := [] -- the last name of a question
  warnings : List Raw := [] -- what there is to be warned of, last first
  store : Store
  cwd : Location
  -- when what stands under an entry has been written to, in ticks
  timeOf : Entry → Int := fun _ => 0
  now : Int := 0 -- the present moment, in seconds since the beginning of 1970

/-- Takes arguments. -/
abbrev Reader := StateT Reading (Except Fault)

namespace Reader

def fail {α : Type} (t : Raw) : Reader α := throw t

/-- Takes the argument of an option. -/
def operand : Reader Raw := do
  let s ← get
  match s.rest with
  | [] => fail ("missing argument to \x60".toList ++ s.last ++ ['\''])
  | a :: rest =>
    set { s with rest }
    return a

/-- Takes a pattern; its letters are made small if their size does not count. -/
def pattern (folds : Bool) : Reader (List Pattern.Item) := do
  let t ← operand
  return Pattern.ofGlyphs (t.map fun c => ⟨if folds then c.toLower else c, false⟩)

/-- An expression of the editor's kind, in which parentheses and bars stand behind backslashes. -/
def extended : Raw → Raw
  | '\\' :: c :: t => (if "(|)".toList.contains c then [c] else ['\\', c]) ++ extended t
  | c :: t => (if "(|)\x7b\x7d".toList.contains c then ['\\', c] else [c]) ++ extended t
  | [] => []

def regular (folds : Bool) : Reader Question := do
  let t ← operand
  let kind := (← get).manner.dialect
  let isBasic : Bool := ["posix-basic", "grep", "ed", "sed"].contains kind
  let isEditor : Bool := ["emacs", "findutils-default"].contains kind
  let text := if isEditor then extended t else t
  match Regular.read { isExtended := !isBasic, isLenient := true } text with
  | .ok (r, _) => return .regular r folds
  | .error f => fail ("failed to compile regular expression '".toList ++ t ++ "': ".toList ++ f.text.toList)

def kinds (follows : Bool) : Reader Question := do
  let option := (← get).last
  let t ← operand
  let rec go : Raw → List Char → Reader (List Char)
    | [], _ =>
      fail ("Last file type in list argument to ".toList ++ option
        ++ " is missing, i.e., list is ending on: ','".toList)
    | c :: rest, read => do
      if !"bcdpflsD".toList.contains c then
        fail ("Unknown argument to ".toList ++ option ++ ": ".toList ++ [c])
      match rest with
      | [] => return c :: read
      | ',' :: rest => go rest (c :: read)
      | _ => fail ("Must separate multiple arguments to ".toList ++ option ++ " using: ','".toList)
  if t = [] then fail ("Arguments to ".toList ++ option ++ " should contain at least one letter".toList)
  return .kind (← go t []) follows

def measure : Reader Measure := do
  let option := (← get).last
  let t ← operand
  match Measure.read? t with
  | some m => return m
  | none => fail ("invalid argument \x60".toList ++ t ++ "' to \x60".toList ++ option ++ ['\''])

/-- Takes the text of a format apart; what is not understood stands for itself. -/
def pieces : (fuel : Nat) → Raw → Reader (List Piece)
  | 0, _ | _, [] => return []
  | fuel + 1, '\\' :: rest => do
    match rest with
    | [] =>
      modify fun s => { s with warnings := "escape \x60\\' followed by nothing at all".toList :: s.warnings }
      return [.text ['\\']]
    | c :: more =>
      if c = 'c' then return [.stop]
      if Format.isOctal c then
        let (n, more) := Format.octal 3 0 rest
        return .text [Format.byte n] :: (← pieces fuel more)
      match if c = '\\' then some c else Format.escaped? c with
      | some d => return .text [d] :: (← pieces fuel more)
      | none =>
        modify fun s =>
          { s with warnings := ("unrecognized escape \x60\\".toList ++ [c, '\'']) :: s.warnings }
        return .text ['\\', c] :: (← pieces fuel more)
  | fuel + 1, '%' :: '%' :: rest => return .text ['%'] :: (← pieces fuel rest)
  | fuel + 1, '%' :: rest => do
    let flags := rest.takeWhile "-+ #0".toList.contains
    let more := rest.drop flags.length
    let width := more.takeWhile Char.isDigit
    let more := more.drop width.length
    let (precision?, more) : Option Nat × Raw := match more with
      | '.' :: more =>
        let digits := more.takeWhile Char.isDigit
        (some ((Raw.nat? digits).getD 0), more.drop digits.length)
      | _ => (none, more)
    match more with
    | [] => fail "error: % at end of format string".toList
    | c :: more =>
      if "abcdDfFgGhHiklmMnpPsStuUyYZ".toList.contains c then
        return .field { flags, width := (Raw.nat? width).getD 0, precision? } c :: (← pieces fuel more)
      let spec := '%' :: rest.take (rest.length - more.length)
      modify fun s =>
        { s with warnings := ("unrecognized format directive \x60".toList ++ spec ++ ['\'']) :: s.warnings }
      return .text spec :: (← pieces fuel more)
  | fuel + 1, c :: rest => do
    let plain := (c :: rest).takeWhile fun c => c ≠ '%' && c ≠ '\\'
    return .text plain :: (← pieces fuel ((c :: rest).drop plain.length))

def size : Reader Question := do
  let t ← operand
  let unit? : Option Nat := match t.getLast? with
    | some 'b' => some 512
    | some 'c' => some 1
    | some 'w' => some 2
    | some 'k' => some 1024
    | some 'M' => some 1048576
    | some 'G' => some 1073741824
    | some c => if c.isDigit then some 512 else none
    | none => none
  match unit? with
  | none =>
    match t.getLast? with
    | some c => fail ("invalid -size type \x60".toList ++ [c, '\''])
    | none => fail "invalid null argument to -size".toList
  | some unit =>
    let number := if t.getLast?.any Char.isDigit then t else t.dropLast
    match Measure.read? number with
    | some m => return .size m unit
    | none => fail ("Invalid argument \x60".toList ++ t ++ "' to -size".toList)

def permission : Reader Question := do
  let t ← operand
  let (how, text) : Bits × Raw := match t with
    | '-' :: rest => (.all, rest)
    | '/' :: rest => (.any, rest)
    | _ => (.exactly, t)
  match Mode.wish? text with
  | some wish => return .permission (wish.apply 0 false 0) how
  | none => fail ("invalid mode ".toList ++ Quote.shown t)

def depth : Reader Nat := do
  let option := (← get).last
  let t ← operand
  match Raw.nat? t with
  | some n => return n
  | none =>
    fail ("Expected a positive decimal integer argument to ".toList ++ option ++ ", but got ".toList
      ++ Quote.shown t)

def other : Reader Location := do
  let t ← operand
  let s ← get
  match s.store.stat? s.cwd (Raw.path t) with
  | .ok (loc, _) => return loc
  | .error e => fail (Quote.shown t ++ ": ".toList ++ (refusalText e).toList)

/-- Takes the words of a program; tells whether it is started once for many files. -/
def program : Reader (List Raw × Bool) := do
  let s ← get
  let rec go : List Raw → List Raw → Option (List Raw × Bool × List Raw)
    | [], _ => none
    | [';'] :: rest, read => some (read.reverse, false, rest)
    | ['+'] :: rest, read =>
      if read.head? = some "\x7b\x7d".toList then some ((read.drop 1).reverse, true, rest)
      else go rest (['+'] :: read)
    | a :: rest, read => go rest (a :: read)
  match go s.rest [] with
  | some (words, many, rest) =>
    if words = [] then fail ("invalid argument \x60;' to \x60".toList ++ s.last ++ ['\''])
    if many && words.contains "\x7b\x7d".toList then
      fail ("Only one instance of \x7b\x7d is supported with ".toList ++ s.last ++ " ... +".toList)
    set { s with rest }
    return (words, many)
  | none => fail ("missing argument to \x60".toList ++ s.last ++ ['\''])

/-- Changes what holds for the whole search. -/
def setting (f : Manner → Manner) : Reader Term := do
  modify fun s => { s with manner := f s.manner }
  return .ask (.known true)

def primary (name : Raw) : Reader Term := do
  modify fun s => { s with last := name }
  match String.ofList (name.drop 1) with
  | "name" => return .ask (.name (← pattern false) false)
  | "iname" => return .ask (.name (← pattern true) true)
  | "path" | "wholename" => return .ask (.path (← pattern false) false)
  | "ipath" | "iwholename" => return .ask (.path (← pattern true) true)
  | "lname" => return .ask (.target (← pattern false) false)
  | "ilname" => return .ask (.target (← pattern true) true)
  | "regex" => return .ask (← regular false)
  | "iregex" => return .ask (← regular true)
  | "type" => return .ask (← kinds false)
  | "xtype" => return .ask (← kinds true)
  | "empty" => return .ask .empty
  | "size" => return .ask (← size)
  | "perm" => return .ask (← permission)
  | "links" => return .ask (.links (← measure))
  | "mtime" | "atime" | "ctime" => return .ask (.age (← measure) 86400)
  | "mmin" | "amin" | "cmin" => return .ask (.age (← measure) 60)
  | "newer" | "anewer" | "cnewer" => do
    let loc ← other
    let s ← get
    return .ask (.newer ((( s.store.entry? loc).map s.timeOf).getD 0))
  | "samefile" => return .ask (.same (← other))
  | "readable" => return .ask (.access .read)
  | "writable" => return .ask (.access .write)
  | "executable" => return .ask (.access .run)
  | "true" => return .ask (.known true)
  | "false" | "nouser" | "nogroup" => return .ask (.known false)
  | "user" | "group" => do
    let t ← operand
    if t = "root".toList ∨ t = ['0'] then return .ask (.known true)
    if (Raw.nat? t).isSome then return .ask (.known false)
    fail (Quote.shown t ++ (if name = "-user".toList then " is not the name of a known user"
      else " is not the name of an existing group").toList)
  | "uid" | "gid" => return .ask (.known ((← measure).fits 0))
  | "print" => return .act (.print ['\n'])
  | "print0" => return .act (.print ['\x00'])
  | "printf" => do
    let t ← operand
    return .act (.format (← pieces (t.length + 1) t))
  | "exec" | "execdir" => do
    let (words, many) ← program
    if many then
      let n := (← get).manner.programs.size
      modify fun s => { s with manner := { s.manner with programs := s.manner.programs.push words } }
      return .act (.gather n (name = "-execdir".toList))
    return .act (.run words (name = "-execdir".toList))
  | "delete" => do
    discard (setting fun k => { k with depthFirst := true })
    return .act .remove
  | "prune" => return .act .prune
  | "quit" => return .act .quit
  | "depth" | "d" => setting fun k => { k with depthFirst := true }
  | "follow" => setting fun k => { k with follows := some true }
  | "maxdepth" => do
    let n ← depth
    setting fun k => { k with deepest? := some n }
  | "mindepth" => do
    let n ← depth
    setting fun k => { k with shallowest := n }
  | "regextype" => do
    let t ← operand
    setting fun k => { k with dialect := String.ofList t }
  | "mount" | "xdev" | "noleaf" | "daystart" | "warn" | "nowarn" | "ignore_readdir_race" =>
    return .ask (.known true)
  | _ =>
    match name.drop 1 with
    | 'n' :: 'e' :: 'w' :: 'e' :: 'r' :: [a, b] =>
      if "aBcm".toList.contains a ∧ "aBcm".toList.contains b then
        let loc ← other
        let s ← get
        return .ask (.newer ((( s.store.entry? loc).map s.timeOf).getD 0))
      if "aBcm".toList.contains a ∧ b = 't' then
        let t ← operand
        match Utility.describedMoment? (Moment.ofSeconds (← get).now) t with
        | some (second, fraction) => return .ask (.newer (tickOf second fraction))
        | none =>
          fail ("I cannot figure out how to interpret ".toList ++ Quote.shown t ++ " as a date or time".toList)
      fail ("unknown predicate \x60".toList ++ name ++ ['\''])
    | _ => fail ("unknown predicate \x60".toList ++ name ++ ['\''])

def isClosing (a : Raw) : Bool := a = [')']

def isChoice (a : Raw) : Bool := a = "-o".toList || a = "-or".toList

def isBoth (a : Raw) : Bool := a = "-a".toList || a = "-and".toList

mutual

/-- Takes expressions with commas between them. -/
def rows : (fuel : Nat) → (opened : Option Raw) → Reader Term
  | 0, _ => fail "expression is too deep".toList
  | fuel + 1, opened => do
    let a ← choices fuel opened
    match (← get).rest with
    | [','] :: rest =>
      modify fun s => { s with rest }
      return .after a (← rows fuel (some [',']))
    | _ => return a

def choices : (fuel : Nat) → (opened : Option Raw) → Reader Term
  | 0, _ => fail "expression is too deep".toList
  | fuel + 1, opened => do
    let a ← chains fuel opened
    match (← get).rest with
    | b :: rest =>
      if isChoice b then
        modify fun s => { s with rest }
        return .either a (← choices fuel (some b))
      else return a
    | [] => return a

/-- Takes expressions that follow each other; `before?` is the sign before them. -/
def chains : (fuel : Nat) → (before? : Option Raw) → Reader Term
  | 0, _ => fail "expression is too deep".toList
  | fuel + 1, before? => do
    let a ← one fuel before?
    match (← get).rest with
    | [] => return a
    | b :: rest =>
      if isBoth b then
        modify fun s => { s with rest }
        return .both a (← chains fuel (some b))
      else if isChoice b ∨ isClosing b ∨ b = [','] then return a
      else return .both a (← chains fuel none)

/-- Takes a single expression. -/
def one : (fuel : Nat) → (before? : Option Raw) → Reader Term
  | 0, _ => fail "expression is too deep".toList
  | fuel + 1, before? => do
    let s ← get
    match s.rest with
    | [] =>
      match before? with
      | some ['('] =>
        fail ("invalid expression; expected to find a ')' but didn't see one. ".toList
          ++ "Perhaps you need an extra predicate after '('".toList)
      | some b => fail ("expected an expression after ".toList ++ Quote.shown b)
      | none => fail "invalid expression".toList
    | a :: rest =>
      set { s with rest }
      if a = ['!'] ∨ a = "-not".toList then return .no (← one fuel (some a))
      else if a = ['('] then
        if rest.head? = some [')'] then fail "invalid expression; empty parentheses are not allowed.".toList
        let t ← rows fuel (some a)
        match (← get).rest with
        | [')'] :: rest =>
          modify fun s => { s with rest }
          return t
        | _ =>
          fail "invalid expression; I was expecting to find a ')' somewhere but did not see one.".toList
      else if isChoice a ∨ isBoth a ∨ a = [','] then
        fail ("invalid expression; you have used a binary operator ".toList ++ Quote.shown a
          ++ " with nothing before it.".toList)
      else if isClosing a then
        fail (if before? = some ['('] then "invalid expression; empty parentheses are not allowed.".toList
          else "you have too many ')'".toList)
      else if a.head? = some '-' then primary a
      else
        let hint : Raw :=
          if (s.store.lstat? s.cwd (Raw.path a)).toOption.isSome ∧ s.last ≠ [] then
            "\nfind: possible unquoted pattern after predicate \x60".toList ++ s.last ++ "'?".toList
          else []
        fail ("paths must precede expression: \x60".toList ++ a ++ '\'' :: hint)

end

def whole : Reader Term := do
  let s ← get
  if s.rest = [] then return .ask (.known true)
  let t ← rows (8 * s.rest.length + 8) none
  match (← get).rest with
  | [')'] :: _ => fail "you have too many ')'".toList
  | _ => return t

end Reader

end LuaTree.Shell.Find

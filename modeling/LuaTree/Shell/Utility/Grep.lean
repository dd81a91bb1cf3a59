import LuaTree.Shell.Pattern
import LuaTree.Shell.Regular.Reader
import LuaTree.Shell.Utility.Names
import LuaTree.Shell.Utility.Streams

/-!
# Searching for lines

`grep` shows the lines in which regular expressions match, with what stands around them when asked to. Input
that holds a NUL is not shown; it is only told that something was found.
-/

namespace LuaTree.Shell.Utility

open Run

/-- What is searched for and how it is shown. -/
structure Grep where
  o : Options
  pattern : Regular
  words : Bool := false
  before : Nat := 0 -- how many lines are shown before each found one
  after : Nat := 0 -- how many lines are shown after each found one
  separator? : Option Raw := none -- what stands between lines that are apart
  most? : Option Nat := none -- how many lines are to be found at most
  named : Bool := false
  numberWidth : Nat := 0 -- how much room numbers take at least
  ending : Char := '\n'

namespace Grep

/-- A regular expression that a text fits exactly. -/
def literal (t : Raw) : Regular := Regular.joined (t.reverse.map Regular.single)

def wordAt? (r : Regular) (s : Regular.Subject) (place : Nat) : Option Regular.Match :=
  let ends := (r.reach s [⟨place, []⟩]).filter fun t =>
    (place = 0 || !s.inWord (place - 1)) && !s.inWord t.place
  match ends with
  | [] => none
  | t :: ts =>
    let best := ts.foldl (fun best t => if best.place < t.place then t else best) t
    some ⟨place, best.place, best.parts⟩

/-- The first match at a place or behind it. -/
def find? (k : Grep) (s : Regular.Subject) (place : Nat) : Option Regular.Match :=
  if k.words then
    ((List.range (s.chars.size + 1 - place)).findSome? fun n => wordAt? k.pattern s (place + n))
  else k.pattern.find? s place

def subject (k : Grep) (line : Raw) : Regular.Subject := { chars := line.toArray, folds := k.o.has 'i' || k.o.has 'y' }

def accepts (k : Grep) (line : Raw) : Bool :=
  let s := k.subject line
  let found := if k.words then (k.find? s 0).isSome else k.pattern.occurs s
  found != k.o.has 'v'

/-- The places of the matches in a line that are not empty. -/
def places (k : Grep) (s : Regular.Subject) : (fuel : Nat) → (place : Nat) → List (Nat × Nat)
  | 0, _ => []
  | fuel + 1, place =>
    match k.find? s place with
    | none => []
    | some m =>
      if m.finish = m.start then
        if m.start < s.chars.size then places k s fuel (m.start + 1) else []
      else (m.start, m.finish) :: places k s fuel m.finish

/-- What has been seen of a file. -/
structure Seen where
  lines : Nat := 0
  taken : Nat := 0 -- how many of the block that has been read last
  bytes : Nat := 0
  found : Nat := 0
  -- the lines before, with their numbers and places, latest first
  before : List (Nat × Nat × Raw) := []
  after : Nat := 0
  shown : Nat := 0 -- the number of the last line that has been shown
  isBinary : Bool := false
  isDone : Bool := false -- whether nothing more is to be seen
  hidden : Bool := false -- whether something has been found that is not shown
  hasShown : Bool := false
  isRefused : Bool := false -- whether the file could not be read
  out : List Raw := [] -- what is to be written, latest first

/-- A line as it is shown; the mark tells found lines from others. -/
def row (k : Grep) (label : Raw) (mark : Char) (number place : Nat) (t : Raw) : Raw :=
  let name := if k.named then label ++ [if k.o.has 'Z' then '\x00' else mark] else []
  let number := if k.o.has 'n' then column k.numberWidth number ++ [mark] else []
  let place := if k.o.has 'b' then column k.numberWidth place ++ [mark] else []
  let tab := if k.o.has 'T' ∧ name ++ number ++ place ≠ [] ∧ t ≠ [] then ['\t'] else []
  name ++ number ++ place ++ tab ++ t ++ [k.ending]

def step (k : Grep) (label : Raw) (s : Seen) (line : Raw) : Seen :=
  if s.isDone then s
  else
    let number := s.lines + 1
    let place := s.bytes
    let s := { s with lines := number, bytes := place + line.length + 1, taken := s.taken + 1 }
    let isOver : Bool := k.most?.any (· ≤ s.found)
    if isOver && s.after == 0 then { s with isDone := true }
    else if k.accepts line ∧ !isOver then
      let s := { s with found := s.found + 1 }
      if k.o.has 'q' ∨ k.o.has 'l' ∨ k.o.has 'L' then { s with isDone := true }
      else if k.o.has 'c' then { s with isDone := k.most?.any (· ≤ s.found) }
      else if s.isBinary then { s with isDone := true, hidden := true }
      else
        let context := s.before.reverse
        let first := (context.head?).elim number (·.1)
        let isApart : Bool := if s.shown = 0 then s.hasShown else decide (s.shown + 1 < first)
        let gap := match k.separator? with
          | some t => if isApart then [t ++ ['\n']] else []
          | none => []
        let earlier := if k.o.has 'o' then [] else context.map fun (n, p, t) => k.row label '-' n p t
        let rows :=
          if !k.o.has 'o' then [k.row label ':' number place line]
          else if k.o.has 'v' then []
          else
            (k.places (k.subject line) (line.length + 2) 0).map fun (a, b) =>
              k.row label ':' number (place + a) ((line.take b).drop a)
        { s with
          before := [], after := k.after, shown := number, hasShown := true
          isDone := k.after = 0 && k.most?.any (· ≤ s.found)
          out := (gap ++ earlier ++ rows).reverse ++ s.out }
    else if 0 < s.after then
      let row := if s.isBinary ∨ k.o.has 'o' ∨ k.o.has 'c' then [] else [k.row label '-' number place line]
      let after := s.after - 1
      { s with after, shown := number, out := row ++ s.out, isDone := isOver && after = 0 }
    else { s with before := if k.before = 0 then [] else ((number, place, line) :: s.before).take k.before }

/-- Searches what can be read from a descriptor, block by block. -/
def through (k : Grep) (label : Raw) (descriptor : Nat) : (fuel : Nat) → (begun : Raw) → Seen →
    Run (Except Errno Seen)
  | 0, _, s => return .ok s
  | fuel + 1, begun, s => do
    let flush (s : Seen) : Run Seen := do
      if s.out ≠ [] then putText s.out.reverse.flatten 2
      return { s with out := [] }
    match ← readSome descriptor blockSize with
    | .error e =>
      if e = .isDirectory then
        if !k.o.has 's' then complain "grep".toList (label ++ ": ".toList ++ e.text.toList)
        return .ok { s with isRefused := true }
      return .error e
    | .ok [] =>
      let s := if begun = [] then s else k.step label s begun
      return .ok (← flush s)
    | .ok data =>
      let isBinary := s.isBinary || (data.contains 0 && !k.o.has 'a' && k.ending = '\n')
      -- a NUL ends a line as well in what is not shown
      match (Raw.ofBytes data).splitOnP fun c => c = k.ending || (isBinary && c = '\x00') with
      | [] => return .ok s
      | first :: more =>
        let lines := (begun ++ first) :: more
        let rest := lines.dropLast
        let s ← flush (rest.foldl (k.step label) { s with isBinary })
        if s.isDone then
          -- what follows is left to others
          if k.most?.isSome then
            unread descriptor ((rest.drop s.taken).foldl (fun n t => n + t.length + 1) (lines.getLastD []).length)
          return .ok s
        else through k label descriptor fuel (lines.getLastD []) { s with taken := 0 }

/-- Says what is to be said about a file at its end; answers whether something was found. -/
def finish (k : Grep) (label : Raw) (s : Seen) : Run Bool := do
  let name := label ++ [if k.o.has 'Z' then '\x00' else '\n']
  if s.hidden then complain "grep".toList (label ++ ": binary file matches".toList)
  if k.o.has 'q' then pure ()
  else if k.o.has 'l' ∨ k.o.has 'L' then
    if decide (s.found ≠ 0) = k.o.has 'l' then putText name 2
  else if k.o.has 'c' then
    putText ((if k.named then label ++ [if k.o.has 'Z' then '\x00' else ':'] else []) ++ Raw.ofNat s.found
      ++ ['\n']) 2
  return s.found ≠ 0

/-- Searches a file; answers whether something was found, whether it could be read, and whether lines have
been shown. -/
def search (k : Grep) (hasShown : Bool) (file : Raw) : Run (Bool × Bool × Bool) := do
  let label := if file = ['-'] then (k.o.value? '\x05').getD "(standard input)".toList else file
  let searched (d : Nat) : Run (Except Errno Seen) := do
    -- numbers that stand below each other have room for all there can be
    let most ← match ← filePlace? d with
      | some (i, _) => pure ((( ← get).store.inode i).data.length + if k.o.has 'n' then 1 else 0)
      | none => pure 9223372036854775807
    let k := if k.o.has 'T' then { k with numberWidth := (Raw.ofNat most).length } else k
    k.through label d rounds [] { hasShown }
  match joined (← withInput file searched) with
  | .ok s => return (← k.finish label s, !s.isRefused, s.hasShown)
  | .error e =>
    if !k.o.has 's' then complain "grep".toList (file ++ ": ".toList ++ (refusalText e).toList)
    return (false, false, hasShown)

/-- Whether the options let a file take part. -/
def isIncluded (k : Grep) (name : Raw) (isDir : Bool) : Bool :=
  let fits (p : Raw) : Bool := Pattern.accepts (Pattern.ofGlyphs (p.map fun c => ⟨c, false⟩)) name
  if isDir then !(k.o.values '\x04').any fits
  else
    let included := k.o.values '\x02'
    (included = [] || included.any fits) && !(k.o.values '\x03').any fits

/-- The files below a path, in the order of their names. -/
def below (k : Grep) : (depth : Nat) → Raw → Run (List Raw)
  | 0, _ => return []
  | depth + 1, p => do
    let m ← get
    match m.store.stat? m.environment.cwd (Raw.path p) with
    | .ok (_, .dir _) =>
      match m.store.list? m.environment.cwd (Raw.path p) with
      | .error _ => return []
      | .ok names =>
        let mut all := []
        for n in names do
          let n := Raw.ofPath n
          let q := inside p n
          match m.store.lstat? m.environment.cwd (Raw.path q) with
          | .ok (_, .dir _) => if k.isIncluded n true then all := all ++ (← below k depth q)
          | .ok (_, .file _) => if k.isIncluded n false then all := all ++ [q]
          | _ => pure ()
        return all
    | _ => return [p]

end Grep

/-- Complains about the use of `grep`. -/
def complainGrep (name : Raw) : Run Nat := do
  complainLine ("Usage: ".toList ++ name ++ " [OPTION]... PATTERNS [FILE]...".toList)
  complainLine ("Try '".toList ++ name ++ " --help' for more information.".toList)
  return 2

/-- The options of `grep`. -/
def grepOptions : OptionTable where
  flags := "EFGPivwxclLnoqshHrRabzZTUIyu\x0bV"
  valued := "efmABCdD\x02\x03\x04\x05\x08"
  optional := "\x06"
  long := [("extended-regexp", 'E'), ("fixed-strings", 'F'), ("basic-regexp", 'G'), ("perl-regexp", 'P'),
    ("regexp", 'e'), ("file", 'f'), ("ignore-case", 'i'), ("no-ignore-case", '\x07'), ("word-regexp", 'w'),
    ("line-regexp", 'x'), ("count", 'c'), ("files-with-matches", 'l'), ("files-without-match", 'L'),
    ("max-count", 'm'), ("line-number", 'n'), ("only-matching", 'o'), ("quiet", 'q'), ("silent", 'q'),
    ("no-messages", 's'), ("no-filename", 'h'), ("with-filename", 'H'), ("recursive", 'r'),
    ("dereference-recursive", 'R'), ("after-context", 'A'), ("before-context", 'B'), ("context", 'C'),
    ("text", 'a'), ("byte-offset", 'b'), ("null-data", 'z'), ("null", 'Z'), ("initial-tab", 'T'),
    ("binary", 'U'), ("invert-match", 'v'), ("include", '\x02'), ("exclude", '\x03'), ("exclude-dir", '\x04'),
    ("label", '\x05'), ("color", '\x06'), ("colour", '\x06'), ("line-buffered", 'u'), ("group-separator", '\x08'), ("no-group-separator", '\x0b'), ("version", 'V')]

/-- Rewrites options such as `-2`. -/
def modernContext : List Raw → List Raw
  | [] => []
  | ['-', '-'] :: rest => ['-', '-'] :: rest
  | a :: rest =>
    let digits := a.filter Char.isDigit
    let letters := (a.drop 1).filter fun c => !c.isDigit
    let isShort := a.head? = some '-' && letters.all grepOptions.flags.toList.contains
    (if isShort ∧ digits ≠ [] then
      (if letters = [] then [] else ['-' :: letters]) ++ [['-', 'C'] ++ digits]
    else [a]) ++ modernContext rest

/-- Searches for lines; the kind tells how patterns are written unless options say so. -/
def grepAs (kind : Char) : Utility := fun name arguments => do
  match grepOptions.read {} (modernContext arguments) with
  | .error message =>
    complain name message
    complainGrep name
  | .ok o =>
    if o.has 'V' then
      putLine "grep (GNU grep) 3.11".toList
      return 0
    let number (c : Char) (what : String) : Run (Except Unit (Option Nat)) := do
      match o.value? c with
      | none => return .ok none
      | some t =>
        match Raw.int? t with
        | some (.ofNat n) => return .ok (some n)
        | some _ => return .ok none
        | none =>
          if c = 'm' then complain name what.toList
          else complain name (t ++ ": ".toList ++ what.toList)
          return .error ()
    let most? ← number 'm' "invalid max count"
    let context? ← number 'C' "invalid context length argument"
    let after? ← number 'A' "invalid context length argument"
    let before? ← number 'B' "invalid context length argument"
    match most?, context?, after?, before? with
    | .ok most?, .ok context?, .ok after?, .ok before? =>
      let mut patterns := o.values 'e'
      let mut operands := o.operands
      for file in o.values 'f' do
        match ← inputOf file with
        | .ok data => patterns := patterns ++ linesOf data
        | .error e =>
          complain name (file ++ ": ".toList ++ (refusalText e).toList)
          return 2
      if !o.has 'e' ∧ !o.has 'f' then
        match operands with
        | [] => return ← complainGrep name
        | p :: rest =>
          patterns := [p]
          operands := rest
      let kind := (o.last? "EFGP").getD kind
      let mut found : Option Regular := none
      for p in patterns.flatMap (·.splitOn '\n') do
        let read : Except Regular.Fault (Regular × Regular.State) :=
          if kind = 'F' then .ok (Grep.literal p, { rest := [] })
          else Regular.readWhole
            { isExtended := kind ≠ 'G', isLenient := true, isStrict := true, isRich := kind = 'P' } p
        match read with
        | .error e =>
          complain name e.text.toList
          return 2
        | .ok (r, met) =>
          for operator in met.idle.reverse do
            complain name ("warning: ".toList ++ operator ++ " at start of expression".toList)
          let r := if o.has 'x' then .both .start (.both r .finish) else r
          found := some (match found with
            | some q => .either q r
            | none => r)
      let recursive := o.has 'r' || o.has 'R'
      let k : Grep :=
        { o, most?
          pattern := found.getD (.one { ranges := [] })
          words := o.has 'w' && !o.has 'x'
          before := (before?.orElse fun _ => context?).getD 0
          after := (after?.orElse fun _ => context?).getD 0
          separator? :=
            if o.has '\x0b' ∨ (before?.isNone ∧ after?.isNone ∧ context?.isNone) then none
            else some ((o.value? '\x08').getD "--".toList)
          ending := if o.has 'z' then '\x00' else '\n' }
      let asksNothing := patterns = [[]] ∧ o.has 'v' ∧ !o.has 'w' ∧ !o.has 'x'
      if (most? = some 0 ∨ asksNothing) ∧ !o.has 'L' then return 1
      let files := if operands = [] then if recursive then [['.']] else [['-']] else operands
      let mut all := #[]
      let mut several : Bool := decide (1 < files.length)
      for file in files do
        if recursive ∧ file ≠ ['-'] then
          let m ← get
          let isDir := m.store.isDir m.environment.cwd (Raw.path file)
          several := several || isDir
          let under ← k.below 64 file
          let under := if isDir then under else under.filter (k.isIncluded · false)
          all := all ++ (if operands = [] then under.map (·.drop 2) else under).toArray
        else if k.isIncluded file false ∨ file = ['-'] then all := all.push file
      let named := match o.last? "hH" with
        | some c => decide (c = 'H')
        | none => several
      let k := { k with named }
      let mut any := false
      let mut failed := false
      let mut shown := false
      for file in all.toList do
        let (hit, readable, hasShown) ← k.search shown file
        shown := hasShown
        any := any || hit
        failed := failed || !readable
        if hit ∧ o.has 'q' then return 0
      return if failed then 2 else if any then 0 else 1
    | _, _, _, _ => return 2

/-- `grep`: searches for lines. -/
def grep : Utility := grepAs 'G'

/-- `egrep`: searches for lines with extended expressions. -/
def egrep : Utility := fun _ => grepAs 'E' "grep".toList

/-- `fgrep`: searches for lines with fixed texts. -/
def fgrep : Utility := fun _ => grepAs 'F' "grep".toList

end LuaTree.Shell.Utility

import LuaTree.Shell.Format
import LuaTree.Shell.Utility.Basic

/-!
# Utilities that pass text on

Whole inputs or parts of them go to the standard output, with marks or without.
-/

namespace LuaTree.Shell.Utility

open Run

/-! ## Writing input -/

/-- How `cat` shows its input. -/
structure Showing where
  numbers : Bool := false -- whether lines are numbered, and whether empty ones are left out of that
  skipsEmpty : Bool := false -- whether empty lines are not numbered
  ends : Bool := false
  tabs : Bool := false
  hidden : Bool := false -- whether other characters that cannot be seen are shown
  squeezes : Bool := false -- whether further empty lines are dropped

/-- Where `cat` has got to. -/
structure Shown where
  line : Nat := 0 -- the number of the last line
  fresh : Bool := true -- whether a line begins here
  empty : Nat := 0 -- how many empty lines have come last

namespace Showing

def isPlain (k : Showing) : Bool := !(k.numbers || k.ends || k.tabs || k.hidden || k.squeezes)

def visible (c : Char) : Raw :=
  let low (c : Char) : Raw :=
    if c < ' ' then ['^', Char.ofNat (c.toNat + 64)] else if c = '\x7f' then ['^', '?'] else [c]
  if c.toNat < 128 then low c else "M-".toList ++ low (Char.ofNat (c.toNat - 128))

def character (k : Showing) (c : Char) : Raw :=
  if c = '\t' then if k.tabs then ['^', 'I'] else [c]
  else if k.hidden then visible c
  else [c]

/-- A line, or a part of one, as it is shown. -/
def line (k : Showing) (s : Shown) (t : Raw) (complete : Bool) : Raw × Shown :=
  if s.fresh ∧ t = [] ∧ complete ∧ k.squeezes ∧ 0 < s.empty then ([], { s with empty := s.empty + 1 })
  else
    let isEmpty := s.fresh && t = [] && complete
    let counts := k.numbers && s.fresh && !(k.skipsEmpty && isEmpty)
    let number := if counts then s.line + 1 else s.line
    let text := if k.hidden || k.tabs then t.flatMap k.character else t
    -- a carriage return at the end would hide the mark
    let text :=
      if k.ends ∧ !k.hidden ∧ complete ∧ text.getLast? = some '\r' then text.dropLast ++ ['^', 'M'] else text
    ((if counts then column 6 number ++ ['\t'] else []) ++ text
        ++ (if complete then (if k.ends then ['$', '\n'] else ['\n']) else []),
      { line := number, fresh := complete, empty := if isEmpty then s.empty + 1 else 0 })

end Showing

/-- The file that a descriptor stands for, and the place that has been reached in it. -/
def filePlace? (descriptor : Nat) : Run (Option (Nat × Nat)) := do
  let m ← get
  match m.environment.descriptors.get? descriptor with
  | some (.file id) =>
    return (m.files.get? id).bind fun f =>
      match f.handle with
      | .file i => some (i, if f.atEnd then (m.store.inode i).data.length else f.offset)
      | _ => none
  | _ => return none

/-- `cat`: writes its input. -/
def cat : Utility := withOptions "AbeEnstTuv" ""
    [("show-all", 'A'), ("number-nonblank", 'b'), ("show-ends", 'E'), ("number", 'n'),
     ("squeeze-blank", 's'), ("show-tabs", 'T'), ("show-nonprinting", 'v')] fun name o => do
  let k : Showing :=
    { numbers := o.has 'n' || o.has 'b', skipsEmpty := o.has 'b'
      ends := o.has 'E' || o.has 'A' || o.has 'e', tabs := o.has 'T' || o.has 'A' || o.has 't'
      hidden := o.has 'v' || o.has 'A' || o.has 'e' || o.has 't', squeezes := o.has 's' }
  if (← channel? 1).isNone then
    complain name "standard output: Bad file descriptor".toList
    return 1
  let mut status := 0
  let mut shown : Shown := {}
  for file in inputFiles o.operands do
    let target? ← filePlace? 1
    let before := shown
    let answer ← withInput file fun d => do
      match target?, ← filePlace? d with
      | some (i, reached), some (j, start) =>
        if i = j ∧ start < reached then
          complain name (file ++ ": input file is output file".toList)
          return (.ok none)
      | _, _ => pure ()
      if k.isPlain then
        match ← eachBlock d fun data => do put data; return true with
        | .ok () => return .ok (some before)
        | .error e => return .error e
      else
        match ← readAll d with
        | .error e => return .error e
        | .ok data =>
          let parts := (Raw.ofBytes data).splitOn '\n'
          let (text, s) := parts.dropLast.foldl (fun (text, s) line =>
            let (t, s) := k.line s line true
            (t :: text, s)) (([] : List Raw), before)
          let last := parts.getLastD []
          let (text, s) := if last = [] then (text, s) else
            let (t, s) := k.line s last false
            (t :: text, s)
          putText text.reverse.flatten
          return .ok (some s)
    match joined answer with
    | .ok (some s) => shown := s
    | .ok none => status := 1
    | .error e =>
      complainFile name file e
      status := 1
  if status = 1 ∧ o.operands.all (· = ['-']) ∧ (← channel? 0).isNone then
    complain name "closing standard input: Bad file descriptor".toList
  return status

/-! ## Parts of the input -/

/-- The factor that a letter behind a number stands for. -/
def factor? (t : Raw) : Option Nat :=
  let power (base : Nat) (n : Nat) : Nat := (List.replicate n base).foldl (· * ·) 1
  match String.ofList t with
  | "" => some 1
  | "b" => some 512
  | "kB" => some 1000
  | "k" | "K" | "KiB" => some 1024
  | "MB" => some (power 1000 2)
  | "m" | "M" | "MiB" => some (power 1024 2)
  | "GB" => some (power 1000 3)
  | "G" | "GiB" => some (power 1024 3)
  | "TB" => some (power 1000 4)
  | "T" | "TiB" => some (power 1024 4)
  | _ => none

/-- A number that may be followed by the letter of a factor. -/
def count? (t : Raw) : Option Nat :=
  let digits := t.takeWhile Char.isDigit
  match Raw.nat? digits, factor? (t.drop digits.length) with
  | some n, some k => some (n * k)
  | _, _ => none

/-- How many bytes the first `n` lines take, on top of those counted already, and how many lines are still
to come. -/
def lineSpan (ending : UInt8) : (n counted : Nat) → Bytes → Nat × Nat
  | 0, counted, _ => (counted, 0)
  | n + 1, counted, [] => (counted, n + 1)
  | n + 1, counted, b :: rest =>
    if b = ending then lineSpan ending n (counted + 1) rest
    else lineSpan ending (n + 1) (counted + 1) rest

/-- The first `n` lines. -/
def firstLines (ending : UInt8) (n : Nat) (data : Bytes) : Bytes :=
  data.take (lineSpan ending n 0 data).1

/-- How many lines there are; the last one need not be complete. -/
def lineCount (ending : UInt8) (data : Bytes) : Nat :=
  data.count ending + (match data.getLast? with
    | some b => if b = ending then 0 else 1
    | none => 0)

/-- All but the first `n` lines. -/
def afterLines (ending : UInt8) (n : Nat) (data : Bytes) : Bytes :=
  data.drop (lineSpan ending n 0 data).1

/-- Writes the first lines or bytes of what can be read, and leaves the rest where it can be read again. -/
def writeFirst (bytes : Bool) (ending : UInt8) (descriptor : Nat) : (fuel : Nat) → (n : Nat) →
    Run (Except Errno Unit)
  | 0, _ => return .ok ()
  | fuel + 1, n => do
    if n = 0 then return .ok ()
    match ← readSome descriptor blockSize with
    | .error e => return .error e
    | .ok [] => return .ok ()
    | .ok data =>
      let (taken, left) := if bytes then (min n data.length, n - data.length) else lineSpan ending n 0 data
      put (data.take taken)
      if left = 0 then
        unread descriptor (data.length - taken)
        return .ok ()
      writeFirst bytes ending descriptor fuel left

/-- Writes a part of each input file, under headings when there are several. -/
def excerpts (name : Raw) (o : Options) (write : Nat → Run (Except Errno Unit)) : Run Nat := do
  let headed := (1 < o.operands.length || o.last? "vq" = some 'v') && o.last? "vq" ≠ some 'q'
  let mut first := true
  let mut status := 0
  for file in inputFiles o.operands do
    let isFirst := first
    let answer ← withInput file fun d => do
      if headed then
        let shown := if file = ['-'] then "standard input".toList else file
        putText ((if isFirst then [] else ['\n']) ++ "==> ".toList ++ shown ++ " <==\n".toList)
      write d
    match answer with
    | .ok (.ok ()) => first := false
    | .ok (.error e) =>
      first := false
      let shown := if file = ['-'] then "standard input".toList else file
      complain name ("error reading ".toList ++ Quote.always shown ++ ": ".toList ++ e.text.toList)
      status := 1
    | .error e =>
      complain name ("cannot open ".toList ++ Quote.always file ++ " for reading: ".toList
        ++ (refusalText e).toList)
      status := 1
  return status

/-- Replaces an old-style count of `head`, such as `-3` or `-3q`, by options. -/
def modernHead : List Raw → List Raw
  | ('-' :: t) :: rest =>
    let digits := t.takeWhile Char.isDigit
    let letters := t.drop digits.length
    if digits = [] then ('-' :: t) :: rest
    else
      -- what is no letter of a count is left to be complained about
      let wrong := letters.find? (!"bkmclqvz".toList.contains ·)
      let unit? := (letters.reverse.find? "bkmcl".toList.contains)
      let factor := (letters.filter "bkm".toList.contains).getLast?.toList
      [(if unit?.any (· ≠ 'l') then "-c" else "-n").toList, digits ++ factor]
        ++ ((letters.filter "qvz".toList.contains).map fun c => ['-', c])
        ++ (wrong.toList.map fun c => "-\x03".toList ++ [c]) ++ rest
  | arguments => arguments

/-- Replaces an old-style count of `tail`, such as `-3` or `+3c`, by options; at most one file may follow. -/
def modernTail : List Raw → List Raw
  | (s :: t) :: rest =>
    let digits := t.takeWhile Char.isDigit
    let letters := t.drop digits.length
    let isAlone : Bool := match rest with
      | [] => true
      | [file] => file.head? ≠ some '-' || file = ['-']
      | file :: _ => file = ['-', '-'] && rest.length ≤ 2
    let unit := letters.filter "bcl".toList.contains
    let isCount : Bool := (s = '+' || (s = '-' && t ≠ [] && t ≠ ['c'])) && letters = unit ++ (letters.filter (· = 'f'))
      && unit.length ≤ 1 && letters.length ≤ unit.length + 1
    if !isAlone ∨ !isCount then (s :: t) :: rest
    else
      let sign : Raw := if s = '+' then ['+'] else []
      let count := if digits = [] then "10".toList else digits
      [(if unit = [] ∨ unit = ['l'] then "-n" else "-c").toList, sign ++ count ++ unit.filter (· = 'b')]
        ++ ((letters.filter (· = 'f')).map fun c => ['-', c]) ++ rest
  | arguments => arguments

/-- The long options of `head` and `tail`. -/
def excerptNames : List (String × Char) :=
  [("bytes", 'c'), ("lines", 'n'), ("quiet", 'q'), ("silent", 'q'), ("verbose", 'v'),
   ("zero-terminated", 'z')]

/-- Says that a text is no number of lines or bytes. -/
def badCount (name : Raw) (bytes : Bool) (given : Raw) : Run Nat := do
  complain name ("invalid number of ".toList ++ (if bytes then "bytes" else "lines").toList
    ++ ": ".toList ++ Quote.shown given)
  return 1

/-- `head`: writes the beginning of its input. -/
def head : Utility := fun name arguments =>
  (withOptions "qvz0123456789" "nc\x03" excerptNames fun name o => do
    if let some (c, t) := o.given.find? fun p => p.1.isDigit ∨ p.1 = '\x03' then
      return ← complainUsage name ("invalid trailing option -- ".toList ++ if c = '\x03' then t else [c])
    let bytes := o.last? "nc" = some 'c'
    let ending : UInt8 := if o.has 'z' then 0 else 10
    let given := (o.value? (if bytes then 'c' else 'n')).getD "10".toList
    let back := given.head? = some '-'
    match count? (if back then given.drop 1 else given) with
    | none => badCount name bytes (if back then given.drop 1 else given)
    | some n =>
      excerpts name o fun d => do
        if !back then return ← writeFirst bytes ending d rounds n
        match ← readAll d with
        | .error e => return .error e
        | .ok data =>
          if bytes then put (data.take (data.length - n))
          else put (firstLines ending (lineCount ending data - n) data)
          return .ok ()) name (modernHead arguments)

/-- `tail`: writes the end of its input. -/
def tail : Utility := fun name arguments =>
  (withOptions "qvfFz0123456789" "ncs" (excerptNames ++ [("follow", 'f')]) fun name o => do
    if let some c := o.last? "0123456789" then
      complain name ("option used in invalid context -- ".toList ++ [c])
      return 1
    let bytes := o.last? "nc" = some 'c'
    let ending : UInt8 := if o.has 'z' then 0 else 10
    let given := (o.value? (if bytes then 'c' else 'n')).getD "10".toList
    let onward := given.head? = some '+'
    match count? (if onward || given.head? = some '-' then given.drop 1 else given) with
    | none => badCount name bytes given
    | some n =>
      if n = 0 ∧ !onward ∧ (o.last? "fF").isNone then return 0
      excerpts name o fun d => do
        match ← readAll d with
        | .error e => return .error e
        | .ok data =>
          put (if bytes then data.drop (if onward then n - 1 else data.length - n)
            else afterLines ending (if onward then n - 1 else lineCount ending data - n) data)
          return .ok ()) name (modernTail arguments)

/-! ## Counting -/

/-- What is counted of a text. -/
structure Counts where
  lines : Nat := 0
  words : Nat := 0
  bytes : Nat := 0
  widest : Nat := 0 -- the columns of the longest line
  inside : Bool := false
  columns : Nat := 0

namespace Counts

def step (k : Counts) (b : UInt8) : Counts :=
  let isSpace := b = 32 || (9 ≤ b && b ≤ 13)
  let columns :=
    if b = 10 || b = 13 || b = 12 then 0
    else if b = 9 then k.columns + 8 - k.columns % 8
    else if 32 ≤ b && b < 127 then k.columns + 1
    else k.columns
  { lines := if b = 10 then k.lines + 1 else k.lines
    words := if !isSpace && !k.inside then k.words + 1 else k.words
    bytes := k.bytes + 1
    widest := max k.widest columns
    inside := !isSpace
    columns }

def plus (a b : Counts) : Counts :=
  { lines := a.lines + b.lines, words := a.words + b.words, bytes := a.bytes + b.bytes,
    widest := max a.widest b.widest }

def byLetter (k : Counts) : Char → Nat
  | 'l' => k.lines
  | 'w' => k.words
  | 'L' => k.widest
  | _ => k.bytes

end Counts

/-- How wide the columns of `wc` are: as the size of all regular files asks for, and wider when there are
others, whose size cannot be known before. -/
def countWidth (operands : List Raw) (single : Bool) : Run Nat := do
  if operands.length ≤ 1 ∧ single then return 1
  let m ← get
  let mut size := 0
  let mut least := 1
  for file in inputFiles operands do
    if file = ['-'] then
      match ← filePlace? 0 with
      | some (i, _) => size := size + (m.store.inode i).data.length
      | none => least := 7
    else
      match m.store.stat? m.environment.cwd (Raw.path file) with
      | .ok (_, .file i) => size := size + (m.store.inode i).data.length
      | .ok _ => least := 7
      | .error _ => pure ()
  return max least (Raw.ofNat size).length

/-- `wc`: counts lines, words and bytes. -/
def wc : Utility := withOptions "lwcmL" "\x03\x04"
    [("bytes", 'c'), ("chars", 'm'), ("lines", 'l'), ("words", 'w'), ("max-line-length", 'L'), ("total", '\x03'),
     ("files0-from", '\x04')] fun name o => do
  let o ← match o.value? '\x04' with
    | none => pure o
    | some list =>
      if let some extra := o.operands.head? then
        return ← complainUsage name ("extra operand ".toList ++ Quote.shown extra
          ++ "\nfile operands cannot be combined with --files0-from".toList)
      match ← inputOf list with
      | .error e =>
        complain name ("cannot open ".toList ++ Quote.always list ++ " for reading: ".toList ++ (refusalText e).toList)
        return 1
      | .ok data => pure { o with operands := recordsOf '\x00' (Raw.ofBytes data) }
  let ways := ["auto", "always", "only", "never"]
  let given := (o.value? '\x03').getD "auto".toList
  let way ← match ways.filter fun w => given.isPrefixOf w.toList with
    | [w] => pure w
    | _ => return ← complainChoice name "total".toList given ways
  let chosen := ['l', 'w', 'm', 'c', 'L'].filter o.has
  let chosen := if chosen = [] then ['l', 'w', 'c'] else chosen
  let width ← countWidth o.operands (chosen.length = 1)
  let row (width : Nat) (k : Counts) (label : Raw) : Run Unit :=
    putText ([' '].intercalate (chosen.map fun c => column width (k.byLetter c)) ++ label ++ ['\n'])
  let mut total : Counts := {}
  let mut status := 0
  for file in inputFiles o.operands do
    let label := if o.operands = [] then [] else ' ' :: Quote.ifNeeded false file
    let answer ← withInput file fun d => countAll d rounds {}
    match answer with
    | .ok (k, e?) =>
      match e? with
      | some e =>
        complainFile name file (.os e)
        status := 1
      | none => pure ()
      if way ≠ "only" then row width k label
      total := total.plus k
    | .error e =>
      complainFile name file e
      status := 1
  if way = "only" then row 1 total []
  else if way = "always" ∨ (way = "auto" ∧ 1 < o.operands.length) then row width total " total".toList
  return status
where
  countAll (d : Nat) : (fuel : Nat) → Counts → Run (Counts × Option Errno)
    | 0, k => return (k, none)
    | fuel + 1, k => do
      match ← readSome d blockSize with
      | .error e => return (k, some e)
      | .ok [] => return (k, none)
      | .ok data => countAll d fuel (data.foldl Counts.step k)

/-! ## Copies and sources -/

/-- `tee`: writes its input to the standard output and to files. -/
def tee : Utility := withOptions "aip" "" [("append", 'a'), ("ignore-interrupts", 'i')] fun name o => do
  let way : Opening := if o.has 'a' then .atEnd else .anew
  let mut targets := #[1]
  let mut status := 0
  for (file, k) in o.operands.zipIdx do
    match ← openOutput way (Raw.path file) with
    | .ok c =>
      let d := inputDescriptor + 1 + k
      setDescriptor d (some c)
      targets := targets.push d
    | .error e =>
      complainFile name file e
      status := 1
  let all := targets.toList
  let answer ← eachBlock 0 fun data => do
    for d in all do
      match ← write d data with
      | .ok () => pure ()
      | .error e =>
        let file := if d = 1 then "standard output".toList
          else (o.operands[d - inputDescriptor - 1]?).getD []
        complain name (Quote.ifNeeded false file ++ ": ".toList ++ e.text.toList)
        throw (.exit 1)
    return true
  match answer with
  | .ok () => return status
  | .error e =>
    complain name ("read error: ".toList ++ e.text.toList)
    return 1

/-- `yes`: writes a line over and over. -/
def yes : Utility := withOptions "" "" [] fun _ o => do
  let line := Raw.bytes ((if o.operands = [] then ['y'] else [' '].intercalate o.operands) ++ ['\n'])
  let block := (List.replicate (8192 / line.length + 1) line).flatten
  forever block rounds
  return 0
where
  -- writes a block over and over
  forever (block : Bytes) : (fuel : Nat) → Run Unit
    | 0 => throw .exhausted
    | fuel + 1 => do
      put block
      spend roundTime
      forever block fuel

/-- `echo` as a program: it leaves backslashes alone unless it is told otherwise. -/
def echo : Utility := fun _ arguments => do
  putText (Format.plainEcho .utility arguments)
  return 0

/-- `printf` as a program. -/
def printf : Utility := fun name arguments => do
  let arguments := if arguments.head? = some ['-', '-'] then arguments.drop 1 else arguments
  match arguments with
  | [] => complainMissing name
  | format :: rest =>
    let (text, complaints, unused) := Format.printf .utility (Quote.ifNeeded false) format rest
    putText text
    for c in complaints do
      complain name (c.text .utility Quote.shown)
    if unused ≠ [] ∧ complaints.all (!·.isGrave) then
      complain name ("warning: ignoring excess arguments, starting with ".toList
        ++ Quote.shown (unused.headD []))
    return if complaints = [] then 0 else 1

end LuaTree.Shell.Utility

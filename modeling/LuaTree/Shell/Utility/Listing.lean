import LuaTree.Shell.Calendar
import LuaTree.Shell.Utility.Files

/-!
# Listings

What directories hold (`ls`) and what is known about files (`stat`). Owners are not kept in a store, so the
same one is shown for every file.
-/

namespace LuaTree.Shell.Utility

open Run

/-! ## What is known about a file -/

def ownerName : Raw := "root".toList

/-- How a time is shown; the time of day is of no interest if it is long ago. -/
def timeShown (m : Machine) (e : Entry) : Raw :=
  let t := secondOfTick (m.timeOf e)
  let isRecent : Bool := m.now - 15778476 < t && t ≤ m.now + 1
  (Moment.ofSeconds t).format (if isRecent then "%b %e %H:%M" else "%b %e  %Y").toList

def kindLetter : Entry → Char
  | .dir _ => 'd'
  | .file _ => '-'
  | .link _ => 'l'
  | .fifo => 'p'
  | .device _ => 'c'

/-- The number that stands for the kind of an entry next to its permission bits. -/
def kindBits : Entry → Nat
  | .dir _ => 0o040000
  | .file _ => 0o100000
  | .link _ => 0o120000
  | .fifo => 0o010000
  | .device _ => 0o020000

def sizeOf (s : Store) : Entry → Nat
  | .dir _ => 4096
  | .file i => (s.inode i).data.length
  | .link target => Utf8.byteLength target
  | .fifo | .device _ => 0

/-- How many units of a disk an entry takes, each of 1024 bytes. -/
def blocksOf (s : Store) (e : Entry) : Nat :=
  match e with
  | .dir _ => 4
  | .file i => ((s.inode i).data.length + 4095) / 4096 * 4
  | _ => 0

def linksOf (s : Store) (loc : Location) (e : Entry) : Nat :=
  match e with
  | .dir _ => 2 + ((s.names loc).filter fun n => s.holdsDir (loc ++ [n])).length
  | .file i => (s.tree.entries.filter fun p => p.2 = .file i).length
  | _ => 1

/-- Kind and permission bits as listings show them. -/
def modeShown (s : Store) (e : Entry) : Raw := kindLetter e :: Mode.text (s.modeOf e)

def deviceNumbers : Device → Nat × Nat
  | .null => (1, 3)
  | .zero => (1, 5)
  | .full => (1, 7)
  | .terminal => (5, 0)
  | .descriptor n => (136, n)

def humanSize (n : Nat) : Raw :=
  let rec go : (fuel : Nat) → (unit scaled : Nat) → Raw
    | 0, _, k => Raw.ofNat k
    | fuel + 1, unit, k =>
      -- `k` counts in units of 1024 to the power of `unit`, times ten
      if 1024 * 10 ≤ k then go fuel (unit + 1) ((k + 1023) / 1024)
      else
        let letter := ("KMGTPE".toList[unit - 1]?).toList
        if unit = 0 then Raw.ofNat (k / 10)
        else if k < 100 then Raw.ofNat (k / 10) ++ '.' :: Raw.ofNat (k % 10) ++ letter
        else Raw.ofNat ((k + 9) / 10) ++ letter
  go 8 0 (n * 10)

/-! ## Listing -/

/-- A line of a listing. -/
structure Row where
  name : Raw
  loc : Location
  entry : Entry

/-- How `ls` lists. -/
structure Listing where
  name : Raw
  o : Options

namespace Listing

/-- Whether all about a file is shown. -/
def isLong (k : Listing) : Bool := k.o.has 'l' || k.o.has 'g' || k.o.has 'o' || k.o.has 'n'

def keepsLinks (k : Listing) : Bool :=
  !k.o.has 'L' && !k.o.has 'H' && (k.isLong || k.o.has 'd' || k.o.has 'F')

def shownName (k : Listing) (n : Raw) : Raw :=
  if k.o.has 'Q' then
    '"' :: n.flatMap (fun c => if c = '"' ∨ c = '\\' then ['\\', c] else if Quote.isShown c then [c]
      else Quote.sequence c) ++ ['"']
  else if k.o.has 'b' then
    n.flatMap fun c => if c = ' ' ∨ c = '\\' then ['\\', c] else if Quote.isShown c then [c]
      else Quote.sequence c
  else if k.o.has 'q' then n.map fun c => if Quote.isShown c then c else '?'
  else n

def mark (k : Listing) (s : Store) (e : Entry) : Raw :=
  match e with
  | .dir _ => if k.o.has 'F' || k.o.has 'p' then ['/'] else []
  | .file i =>
    if k.o.has 'F' && ((s.inode i).mode &&& 0o111 != 0) then ['*'] else []
  | .link _ => if k.o.has 'F' then ['@'] else []
  | .fifo => if k.o.has 'F' then ['|'] else []
  | .device _ => []

/-- The columns of a line that shows all about a file. -/
def columns (k : Listing) (m : Machine) (r : Row) : List Raw :=
  let s := m.store
  let size := match r.entry with
    | .device d => Raw.ofNat (deviceNumbers d).1 ++ ", ".toList ++ Raw.ofNat (deviceNumbers d).2
    | e => if k.o.has 'h' then humanSize (sizeOf s e) else Raw.ofNat (sizeOf s e)
  let owner := if k.o.has 'n' then ['0'] else ownerName
  [modeShown s r.entry, Raw.ofNat (linksOf s r.loc r.entry)]
    ++ (if k.o.has 'g' then [] else [owner]) ++ (if k.o.has 'o' then [] else [owner]) ++ [size, timeShown m r.entry]

def lines (k : Listing) (m : Machine) (rows : List Row) : List Raw :=
  let s := m.store
  let before (r : Row) : Raw :=
    (if k.o.has 'i' then Raw.ofNat (1000 + r.loc.length) ++ [' '] else [])
      ++ (if k.o.has 's' then Raw.ofNat (blocksOf s r.entry) ++ [' '] else [])
  if !k.isLong then rows.map fun r => before r ++ k.shownName r.name ++ k.mark s r.entry
  else
    let table := rows.map fun r => (r, k.columns m r)
    let width (c : Nat) : Nat := table.foldl (fun n p => max n (p.2.getD c []).length) 0
    table.map fun (r, cs) =>
      let cells := cs.zipIdx.map fun (t, c) =>
        let fill := List.replicate (width c - t.length) ' '
        -- words stand to the left, numbers to the right
        if t.head?.any Char.isDigit then fill ++ t else t ++ fill
      before r ++ [' '].intercalate cells ++ ' ' :: k.shownName r.name
        ++ (match r.entry with
            | .link target => " -> ".toList ++ Raw.ofPath target
            | e => k.mark s e)

/-- The widths of columns for texts, if they fit into a line; `place` tells in which column a text stands. -/
def widths? (lineWidth count : Nat) (place : Nat → Nat) (lines : List Raw) : Option (List Nat) :=
  let widths := (List.range count).map fun c =>
    (lines.zipIdx.filter fun p => place p.2 = c).foldl (fun n p =>
      max n (p.1.length + if c + 1 = count then 0 else 2)) 3
  if widths.foldl (· + ·) 0 < lineWidth then some widths else none

/-- Blanks from one column to another, by tabs where that is possible. -/
def indented : (fuel : Nat) → (start target : Nat) → Raw
  | 0, _, _ => []
  | fuel + 1, start, target =>
    if target ≤ start then []
    else if (start + 1) / 8 < target / 8 then '\t' :: indented fuel (start + 8 - start % 8) target
    else ' ' :: indented fuel (start + 1) target

/-- Texts in as many columns as there is room for, filled one after the other or line by line. -/
def inColumns (lineWidth : Nat) (across : Bool) (lines : List Raw) : List Raw :=
  let n := lines.length
  let rows (count : Nat) : Nat := (n + count - 1) / count
  let place (count i : Nat) : Nat := if across then i % count else i / rows count
  let choices := (List.range (min n (lineWidth / 3))).reverse.map (· + 1)
  match choices.findSome? fun count => (widths? lineWidth count (place count) lines).map fun ws => (count, ws) with
  | none => lines
  | some (count, widths) =>
    let height := rows count
    (List.range height).map fun r =>
      let cells := if across then (lines.drop (r * count)).take count
        else (List.range count).filterMap fun c => lines[c * height + r]?
      let (text, _, _) := cells.zipIdx.foldl (fun ((text, column, start) : Raw × Nat × Nat) (t, c) =>
        (text ++ indented (start + 1) column start ++ t, start + t.length, start + widths.getD c 0)) ([], 0, 0)
      text

/-- Writes lines, one below the other, one behind the other or in columns. -/
def write (k : Listing) (lines : List Raw) : Run Unit := do
  if !k.isLong then
    if let some way := k.o.last? "Cxm1" then
      if way = 'C' ∨ way = 'x' then
        let width := ((k.o.value? 'w').bind Raw.nat?).getD 80
        if width = 0 then return ← if lines = [] then return () else putLine ("  ".toList.intercalate lines) 2
        return ← putText (unlines (inColumns width (way = 'x') lines)) 2
  if k.o.last? "Cxm1" = some 'm' ∧ !k.isLong then
    if lines ≠ [] then
      let (text, _) := lines.zipIdx.foldl (fun ((text, column) : Raw × Nat) (t, i) =>
        if i = 0 then (t, t.length)
        else if column + t.length + 3 < 80 then (text ++ ", ".toList ++ t, column + t.length + 2)
        else (text ++ ",\n".toList ++ t, t.length)) ([], 0)
      putLine text 2
  else putText (unlines lines) 2

def ordered (k : Listing) (m : Machine) (rows : List Row) : List Row :=
  let s := m.store
  let ending (n : Raw) : Raw :=
    let tail := (n.reverse.takeWhile (· ≠ '.')).reverse
    if tail.length < n.length then tail else []
  let rows :=
    if k.o.has 'f' || k.o.has 'U' then rows
    else if k.o.has 'S' then rows.mergeSort fun a b => decide (sizeOf s b.entry ≤ sizeOf s a.entry)
    else if k.o.has 't' then rows.mergeSort fun a b => decide (m.timeOf b.entry ≤ m.timeOf a.entry)
    else if k.o.has 'X' then rows.mergeSort fun a b => !decide (ending b.name < ending a.name)
    else rows
  if k.o.has 'r' then rows.reverse else rows

def isListed (k : Listing) (n : Raw) : Bool :=
  (n.head? ≠ some '.' || k.o.has 'a' || k.o.has 'A' || k.o.has 'f')
    && !(k.o.has 'B' && n.getLast? = some '~')

/-- Lists what a directory holds, and what the directories below it hold if that is asked for. -/
def directory (k : Listing) (headed : Bool) : (depth : Nat) → (first : Bool) → Raw → Run Nat
  | 0, _, _ => return 0
  | depth + 1, first, p => do
    let m ← get
    let s := m.store
    match s.stat? m.environment.cwd (Raw.path p) with
    | .error e =>
      complainAbout k.name "cannot access" p e
      return 2
    | .ok (loc, e) =>
      if !(s.allows e .read) then
        complainAbout k.name "cannot open directory" p (.os .denied)
        return 2
      let held := (s.names loc).filterMap fun n =>
        (s.entry? (loc ++ [n])).map fun e => ({ name := Raw.ofPath n, loc := loc ++ [n], entry := e } : Row)
      let held := held.filter fun r => k.isListed r.name
      let dots : List Row :=
        if k.o.has 'a' || k.o.has 'f' then
          [{ name := ['.'], loc, entry := e },
           { name := ['.', '.'], loc := loc.dropLast, entry := ( s.entry? loc.dropLast).getD e }]
        else []
      let rows := k.ordered m (dots ++ held)
      if headed then putText ((if first then [] else ['\n']) ++ k.shownName p ++ ":\n".toList) 2
      if k.isLong ∨ k.o.has 's' then
        putLine ("total ".toList ++ Raw.ofNat (rows.foldl (fun n r => n + blocksOf s r.entry) 0)) 2
      k.write (k.lines m rows)
      let mut status := 0
      if k.o.has 'R' then
        for r in rows do
          if r.entry.isDir ∧ r.name ≠ ['.'] ∧ r.name ≠ ['.', '.'] then
            status := max status (← directory k true depth false (inside p r.name))
      return status

end Listing

/-- Lists files and what directories hold, with some options as if they were given first. -/
def listingWith (usual : String) : Utility := withTable
    { flags := "1aAbBcCdfgGhHiklLmnopqQrRsStuUxXNZ", valued := "wIT", optional := "FK"
      long := [("all", 'a'), ("almost-all", 'A'), ("escape", 'b'), ("directory", 'd'), ("classify", 'F'),
        ("human-readable", 'h'), ("inode", 'i'), ("ignore", 'I'), ("dereference", 'L'),
        ("numeric-uid-gid", 'n'), ("hide-control-chars", 'q'), ("quote-name", 'Q'), ("reverse", 'r'),
        ("recursive", 'R'), ("size", 's'), ("width", 'w'), ("color", 'K'), ("ignore-backups", 'B'),
        ("no-group", 'G')] } (fun name o => do
  let o := { o with given := usual.toList.map (·, []) ++ o.given }
  let k : Listing := { name, o }
  let operands := (if o.operands = [] then [['.']] else o.operands).mergeSort fun a b => !decide (b < a)
  let m ← get
  let (s, cwd) := (m.store, m.environment.cwd)
  let mut files := #[]
  let mut dirs := #[]
  let mut status := 0
  for p in operands do
    let isDirLink := !k.keepsLinks && s.isDir cwd (Raw.path p)
    let found := if k.keepsLinks ∧ !isDirLink then s.lstat? cwd (Raw.path p) else
      match s.stat? cwd (Raw.path p) with
      | .ok found => .ok found
      | .error e =>
        match s.lstat? cwd (Raw.path p) with
        | .ok found => .ok found
        | .error _ => .error e
    match found with
    | .error e =>
      complainAbout name "cannot access" p e
      status := 2
    | .ok (loc, e) =>
      if e.isDir && !o.has 'd' then dirs := dirs.push p
      else files := files.push ({ name := p, loc, entry := e } : Row)
  let rows := k.ordered m files.toList
  k.write (k.lines m rows)
  let headed := 1 < operands.length || o.has 'R'
  let mut first := rows.isEmpty
  for p in if o.has 'r' then dirs.toList.reverse else dirs.toList do
    status := max status (← k.directory headed 4096 first p)
    first := false
  return status) 2

/-- `ls`: lists files and what directories hold. -/
def ls : Utility := listingWith ""

/-- `dir`: the same in columns. -/
def dir : Utility := listingWith "Cb"

/-- `vdir`: the same with all that is known. -/
def vdir : Utility := listingWith "lb"

/-! ## Status -/

/-- What a letter of a format of `stat` stands for. -/
def statField (m : Machine) (p : Raw) (loc : Location) (e : Entry) (c : Char) : Raw :=
  let s := m.store
  match c with
  | 'a' => Nat.toDigits 8 (s.modeOf e)
  | 'A' => modeShown s e
  | 'b' => Raw.ofNat (2 * blocksOf s e)
  | 'B' => "512".toList
  | 'f' => Nat.toDigits 16 (kindBits e + s.modeOf e)
  | 'F' => (kindOf s e).toList
  | 'g' | 'u' | 'd' | 'i' => ['0']
  | 'G' | 'U' => ownerName
  | 'h' => Raw.ofNat (linksOf s loc e)
  | 'm' => ['/']
  | 'n' => p
  | 'N' =>
    match e with
    | .link target => Quote.always p ++ " -> ".toList ++ Quote.always (Raw.ofPath target)
    | _ => Quote.always p
  | 'o' => "4096".toList
  | 's' => Raw.ofNat (sizeOf s e)
  | 't' =>
    match e with
    | .device d => Nat.toDigits 16 (deviceNumbers d).1
    | _ => ['0']
  | 'T' =>
    match e with
    | .device d => Nat.toDigits 16 (deviceNumbers d).2
    | _ => ['0']
  | 'w' => ['-']
  | 'W' => ['0']
  | 'x' | 'y' | 'z' =>
    (Moment.ofSeconds (secondOfTick (m.timeOf e))).format "%Y-%m-%d %H:%M:%S.%N %z".toList
  | 'X' | 'Y' | 'Z' => Raw.ofInt (secondOfTick (m.timeOf e))
  | '%' => ['%']
  | _ => ['?']

/-- A format of `stat` filled in; backslash sequences may be put in as well. -/
def statText (field : Char → Raw) (escapes : Bool) : (fuel : Nat) → Raw → Raw
  | 0, t => t
  | _ + 1, [] => []
  | fuel + 1, '%' :: rest =>
    let flags := rest.takeWhile "-0#+ ".toList.contains
    let digits := (rest.drop flags.length).takeWhile Char.isDigit
    match rest.drop (flags.length + digits.length) with
    | [] => ['%']
    | c :: rest =>
      let t := field c
      let width := (Raw.nat? digits).getD 0
      let fill := if flags.contains '0' ∧ t.all Char.isDigit then '0' else ' '
      let pad := List.replicate (width - t.length) fill
      (if flags.contains '-' then t ++ pad else pad ++ t) ++ statText field escapes fuel rest
  | fuel + 1, '\\' :: rest =>
    if escapes then
      let (t, rest) := Format.escape .utility rest
      t ++ statText field escapes fuel rest
    else '\\' :: statText field escapes fuel rest
  | fuel + 1, c :: rest => c :: statText field escapes fuel rest

/-- `stat`: writes what is known about files. -/
def stat : Utility := withOptions "Lft" "cp"
    [("dereference", 'L'), ("file-system", 'f'), ("terse", 't'), ("format", 'c'), ("printf", 'p')]
    fun name o => do
  if o.operands = [] then return ← complainMissing name
  let format := match o.last? "cp" with
    | some 'c' => (o.value? 'c').getD [] ++ ['\n']
    | some _ => (o.value? 'p').getD []
    | none =>
      ("  File: %n\n  Size: %-10s\tBlocks: %-10b IO Block: %-6o %F\n"
        ++ "Access: (%04a/%A)  Uid: (    0/    root)   Gid: (    0/    root)\n").toList
  forEach o.operands fun p => do
    match ← (if o.has 'L' then targetOf else entryAt) p with
    | .error e =>
      complainAbout name "cannot statx" p e
      return false
    | .ok (loc, e) =>
      let m ← get
      putText (statText (statField m p loc e) (o.has 'p') (format.length + 1) format)
      return true

end LuaTree.Shell.Utility

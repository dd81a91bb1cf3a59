import LuaTree.Shell.Utility.Streams

/-!
# Utilities that work on lines

Numbers, keeps, cuts and puts together the lines of text files.
-/

namespace LuaTree.Shell.Utility

open Run

/-! ## Equal neighbours -/

/-- `uniq`: drops repeated lines, or counts them. -/
def uniq : Utility := withTable
    { flags := "cdDuiz", valued := "fsw", optional := "\x03\x04"
      long := [("count", 'c'), ("repeated", 'd'), ("all-repeated", '\x03'), ("unique", 'u'), ("ignore-case", 'i'),
        ("skip-fields", 'f'), ("skip-chars", 's'), ("check-chars", 'w'), ("zero-terminated", 'z'),
        ("group", '\x04')] } fun name o => do
  match o.operands.drop 2 with
  | extra :: _ => return ← complainExtra name extra
  | [] => pure ()
  if (o.last? "D\x03").isSome ∧ o.has 'c' then
    return ← complainUsage name "printing all duplicated lines and repeat counts is meaningless".toList
  if o.has '\x04' ∧ (o.last? "cDdu").isSome then
    return ← complainUsage name "--group is mutually exclusive with -c/-d/-D/-u".toList
  let between ← match o.value? '\x03', o.value? '\x04' with
    | some way, _ =>
      match ["none", "prepend", "separate"].find? (way.isPrefixOf ·.toList) with
      | some t => pure (if way = [] then "none" else t)
      | none => return ← complainChoice name "all-repeated".toList way ["none", "prepend", "separate"]
    | _, some way =>
      match ["prepend", "append", "separate", "both"].find? (way.isPrefixOf ·.toList) with
      | some t => pure (if way = [] then "separate" else t)
      | none => return ← complainChoice name "group".toList way ["prepend", "append", "separate", "both"]
    | none, none => pure "none"
  let number (c : Char) (what : String) : Run Nat :=
    match o.value? c with
    | none => return 0
    | some t =>
      match Raw.nat? t with
      | some n => return n
      | none => do
        complain name (t ++ ": invalid number of ".toList ++ what.toList)
        throw (.exit 1)
  let fields ← number 'f' "fields to skip"
  let skipped ← number 's' "bytes to skip"
  let compared ← number 'w' "bytes to compare"
  let isBlank (c : Char) : Bool := c = ' ' || c = '\t'
  let key (line : Raw) : Raw :=
    let afterFields := (List.range fields).foldl
      (fun (t : Raw) _ => (t.dropWhile isBlank).dropWhile (!isBlank ·)) line
    let t := afterFields.drop skipped
    let t := if o.has 'w' then t.take compared else t
    if o.has 'i' then t.map Char.toUpper else t
  let ending : Char := if o.has 'z' then '\x00' else '\n'
  let file := o.operands.headD ['-']
  match ← inputOf file with
  | .error e =>
    if e = .os .isDirectory then
      complain name ("error reading ".toList ++ Quote.always file ++ ": Is a directory".toList)
    else complainFile name file e
    return 1
  | .ok data =>
    let all := o.has 'D' || o.has '\x03' || o.has '\x04'
    let groups := (recordsOf ending (Raw.ofBytes data)).splitBy fun a b => key a = key b
    let texts := groups.filterMap fun g =>
      let isRepeated := 1 < g.length
      if (isRepeated ∧ o.has 'u') ∨ (!isRepeated ∧ (o.last? "dD\x03").isSome) then none
      else some ((if all then g else g.take 1).flatMap fun line =>
        (if o.has 'c' then column 7 g.length ++ [' '] else []) ++ line ++ [ending])
    let text := if texts = [] then [] else
      (if between = "prepend" ∨ between = "both" then [ending] else [])
        ++ (if between = "none" then [] else [ending]).intercalate texts
        ++ (if between = "append" ∨ between = "both" then [ending] else [])
    match o.operands[1]? with
    | none | some ['-'] =>
      putText text
      return 0
    | some target =>
      match ← openOutput .anew (Raw.path target) with
      | .ok c =>
        withChannel 1 c (putText text)
        return 0
      | .error e =>
        complainFile name target e
        return 1

/-! ## Parts of lines -/

/-- What a list such as `1,3-5` counts. -/
inductive Counted where
  | fields
  | positions -- bytes or characters
  deriving DecidableEq

/-- The ranges of a list such as `1,3-5`. -/
def rangesOf (what : Counted) (t : Raw) : Except Raw (List (Nat × Option Nat)) :=
  let fromOne : Raw :=
    (if what = .fields then "fields are" else "byte/character positions are").toList
      ++ " numbered from 1".toList
  let number (t whole : Raw) : Except Raw Nat :=
    match Raw.nat? t with
    | some n =>
      if 18446744073709551615 ≤ n then
        .error ((if what = .fields then "field number " else "byte/character offset ").toList
          ++ Quote.shown t ++ " is too large".toList)
      else .ok n
    | none =>
      let bad := (whole.dropWhile fun c => c.isDigit || c = '-').takeWhile (· ≠ ',')
      .error ((if what = .fields then "invalid field value " else
        "invalid byte/character position ").toList ++ Quote.shown bad)
  (t.splitOnP fun c => c = ',' || c = ' ' || c = '\t').mapM fun part => do
    let low := part.takeWhile (· ≠ '-')
    if low.length = part.length then
      if part = [] then throw fromOne
      let n ← number part part
      if n = 0 then throw fromOne
      return (n, some n)
    let high := part.drop (low.length + 1)
    if low = [] ∧ high = [] then throw "invalid range with no endpoint: -".toList
    let lo ← if low = [] then pure 1 else number low part
    if lo = 0 then throw fromOne
    if high = [] then return (lo, none)
    let hi ← number high part
    if hi < lo then throw "invalid decreasing range".toList
    return (lo, some hi)

def within (rs : List (Nat × Option Nat)) (k : Nat) : Bool :=
  rs.any fun (lo, hi?) => lo ≤ k && (hi?.all (k ≤ ·))

/-- The elements at wanted places, in groups of places that are wanted for the same reason. -/
def selected {α : Type} (rs : List (Nat × Option Nat)) (complement : Bool) (xs : List α) : List (List α) :=
  let places := (xs.zipIdx.filter fun (_, k) => within rs (k + 1) != complement)
  let starts (k : Nat) : Bool := rs.any fun (lo, _) => lo = k + 1
  let overlaps (k : Nat) : Bool := rs.any fun (lo, hi?) => lo ≤ k && (hi?.all (k < ·))
  (places.splitBy fun (_, j) (_, k) =>
    j + 1 = k && (complement || !(starts k && !overlaps k))).map fun g => g.map Prod.fst

/-- `cut`: writes parts of lines. -/
def cut : Utility := withOptions "snz" "cbdfO"
    [("bytes", 'b'), ("characters", 'c'), ("delimiter", 'd'), ("fields", 'f'), ("only-delimited", 's'),
     ("output-delimiter", 'O'), ("complement", 'n'), ("zero-terminated", 'z')] fun name o => do
  let lists := o.given.filter fun p => p.1 = 'c' || p.1 = 'b' || p.1 = 'f'
  let ending : Char := if o.has 'z' then '\x00' else '\n'
  match o.value? 'd' with
  | some (_ :: _ :: _) =>
    return ← complainUsage name "the delimiter must be a single character".toList
  | _ => pure ()
  match lists with
  | [] => complainUsage name "you must specify a list of bytes, characters, or fields".toList
  | _ :: _ :: _ => complainUsage name "only one list may be specified".toList
  | [(kind, list)] =>
    let what : Counted := if kind = 'f' then .fields else .positions
    if what = .positions ∧ o.has 'd' then
      return ← complainUsage name
        "an input delimiter may be specified only when operating on fields".toList
    if what = .positions ∧ o.has 's' then
      return ← complainUsage name
        "suppressing non-delimited lines makes sense\n\tonly when operating on fields".toList
    match rangesOf what list with
    | .error message => complainUsage name message
    | .ok rs =>
      let delimiter := match o.value? 'd' with
        | some [c] => c
        | some _ => '\x00'
        | none => '\t'
      let chosen (line : Raw) : Option Raw :=
        match what with
        | .fields =>
          if !line.contains delimiter then if o.has 's' then none else some line
          else
            let parts := (selected rs (o.has 'n') (line.splitOn delimiter)).flatten
            some (((o.value? 'O').getD [delimiter]).intercalate parts)
        | .positions =>
          some (((o.value? 'O').getD []).intercalate (selected rs (o.has 'n') line))
      let mut status := 0
      for file in inputFiles o.operands do
        let answer ← withInput file fun d => eachLine d (fun line _ => do
          match chosen line with
          | some t => putText (t ++ [ending])
          | none => pure ()
          return true) ending
        match joined answer with
        | .ok () => pure ()
        | .error e =>
          complainFile name file e
          status := 1
      return status

/-! ## Lines side by side -/

/-- The characters of a list of delimiters; none stands for an empty one. -/
def delimitersOf : Raw → List (Option Char)
  | '\\' :: c :: rest =>
    (match c with
      | 'n' => some '\n'
      | 't' => some '\t'
      | '0' => none
      | c => some c) :: delimitersOf rest
  | c :: rest => some c :: delimitersOf rest
  | [] => []

/-- Texts with delimiters between them, which are used in turn. -/
def delimited (ds : List (Option Char)) (ts : List Raw) : Raw :=
  (ts.zipIdx.flatMap fun (t, k) =>
    (if k = 0 then [] else ((ds[(k - 1) % max 1 ds.length]?).bind id).toList) ++ t)

/-- Shares lines out among readers that read from one source. -/
def shareOut (readers : Nat) (ls : List Raw) (reader : Nat) : List Raw :=
  (ls.zipIdx.filter fun (_, k) => k % readers = reader).map Prod.fst

/-- `paste`: puts the lines of files side by side. -/
def paste : Utility := withOptions "sz" "d" [("delimiters", 'd'), ("serial", 's')] fun name o => do
  let ds := delimitersOf ((o.value? 'd').getD ['\t'])
  let files := inputFiles o.operands
  let mut status := 0
  let mut read := #[]
  let fromInput := files.count ['-']
  let shared ← if files.contains ['-'] then inputOf ['-'] else pure (.ok [])
  let mut reader := 0
  for file in files do
    let answer ← if file = ['-'] then pure shared else inputOf file
    match answer with
    | .ok data =>
      if file = ['-'] ∧ !o.has 's' then
        read := read.push (shareOut fromInput (linesOf data) reader)
        reader := reader + 1
      else read := read.push (linesOf data)
    | .error e =>
      complainFile name file e
      status := 1
      if !o.has 's' then return 1
  let columns := read.toList
  if o.has 's' then
    putText (unlines (columns.map (delimited ds)))
  else
    let rows := columns.foldl (fun n c => max n c.length) 0
    putText (unlines ((List.range rows).map fun k => delimited ds (columns.map fun c => c.getD k [])))
  return status

end LuaTree.Shell.Utility

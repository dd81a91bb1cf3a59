import LuaTree.Shell.Utility.Streams

/-!
# Sorting

`sort` compares lines by keys, each of them a part of the line with a way of comparing, and at last as a
whole. The order is total and the sorting stable, so the outcome is determined.
-/

namespace LuaTree.Shell.Utility

open Run

/-- A part of a line by which lines are compared, and how. -/
structure SortKey where
  firstField : Nat := 0 -- the field where it begins, counted from zero
  firstChar : Nat := 0 -- the character of the field where it begins, counted from zero
  -- the field where it ends, counted from zero; the end of the line if there is none
  lastField? : Option Nat := none
  lastChar : Nat := 0 -- how many characters of the last field belong to it; all of them if zero
  ways : List Char := []
  skipsFirst : Bool := false -- whether blanks before its beginning do not count
  skipsLast : Bool := false -- whether blanks before its end do not count
  deriving Inhabited

namespace SortKey

/-- Whether a character separates fields where no separator is given. -/
def isBlank (c : Char) : Bool := c = ' ' || c = '\t' || c = '\n'

def fromField (separator? : Option Char) : (n : Nat) → Raw → Raw
  | 0, t => t
  | n + 1, t =>
    match separator? with
    | some c => fromField separator? n ((t.dropWhile (· ≠ c)).drop 1)
    | none => fromField separator? n ((t.dropWhile isBlank).dropWhile (!isBlank ·))

def toField (separator? : Option Char) (chars : Nat) (skips : Bool) (field : Nat) (t : Raw) : Nat :=
  let start := fromField separator? field t
  if chars = 0 then
    let rest := match separator? with
      | some c => start.dropWhile (· ≠ c)
      | none => (start.dropWhile isBlank).dropWhile (!isBlank ·)
    t.length - rest.length
  else
    let start := if skips then start.dropWhile isBlank else start
    min t.length (t.length - start.length + chars)

def part (k : SortKey) (separator? : Option Char) (line : Raw) : Raw :=
  let start := fromField separator? k.firstField line
  let start := if k.skipsFirst then start.dropWhile isBlank else start
  let start := start.drop k.firstChar
  match k.lastField? with
  | none => start
  | some f =>
    let stop := toField separator? k.lastChar k.skipsLast f line
    start.take (stop - (line.length - start.length))

end SortKey

/-- A decimal number at the start of a text: its digits without the point, and how many stand behind it. -/
def decimalOf (t : Raw) : Int × Nat × Raw :=
  let t := t.dropWhile SortKey.isBlank
  let (negative, t) := match t with
    | '-' :: t => (true, t)
    | t => (false, t)
  let whole := t.takeWhile Char.isDigit
  let t := t.drop whole.length
  let (part, t) := match t with
    | '.' :: t => (t.takeWhile Char.isDigit, t.dropWhile Char.isDigit)
    | t => ([], t)
  let n : Int := ((Raw.nat? (whole ++ part)).getD 0 : Nat)
  (if negative then -n else n, part.length, t)

/-- Compares decimal numbers that texts begin with. -/
def compareDecimals (a b : Raw) : Ordering :=
  let (m, i, _) := decimalOf a
  let (n, j, _) := decimalOf b
  let scale (n : Int) (k : Nat) : Int := n * (List.replicate k (10 : Int)).foldl (· * ·) 1
  compare (scale m (j - i)) (scale n (i - j))

/-- Compares numbers with exponents that texts begin with; what is no number comes first. -/
def compareNumbers (a b : Raw) : Ordering :=
  let isNumber (t : Raw) : Bool :=
    let t := t.dropWhile SortKey.isBlank
    let t := if t.head? = some '-' ∨ t.head? = some '+' then t.drop 1 else t
    t.head?.any Char.isDigit || (t.head? = some '.' && t[1]?.any Char.isDigit)
  let read (t : Raw) : Int × Int :=
    let t := t.dropWhile SortKey.isBlank
    let (n, places, rest) := decimalOf (if t.head? = some '+' then t.drop 1 else t)
    let power : Int := match rest with
      | e :: rest =>
        if e ≠ 'e' ∧ e ≠ 'E' then 0
        else
          let mark := rest.takeWhile fun c => c = '-' || c = '+'
          let digits := (rest.drop mark.length).takeWhile Char.isDigit
          (Raw.int? (mark ++ digits)).getD 0
      | [] => 0
    -- beyond these limits every number is as good as endless or nothing
    (n, max (-5000) (min 5000 power) - places)
  match isNumber a, isNumber b with
  | false, false => .eq
  | false, true => .lt
  | true, false => .gt
  | true, true =>
    let (m, i) := read a
    let (n, j) := read b
    let least := min i j
    let scale (n : Int) (k : Int) : Int := n * (List.replicate (k - least).toNat (10 : Int)).foldl (· * ·) 1
    compare (scale m i) (scale n j)

/-- Compares sizes such as `10K`. -/
def compareSizes (a b : Raw) : Ordering :=
  let rank (t : Raw) : Int :=
    let (n, _, rest) := decimalOf t
    let k : Int := match rest.head? with
      | some c =>
        match "KMGTPEZYRQ".toList.idxOf? (if c = 'k' then 'K' else c) with
        | some k => k + 1
        | none => 0
      | none => 0
    if n < 0 then -k else if n = 0 then 0 else k
  (compare (rank a) (rank b)).then (compareDecimals a b)

/-- The number of a month, or zero. -/
def monthOf (t : Raw) : Nat :=
  let name := String.ofList ((t.dropWhile SortKey.isBlank).take 3 |>.map Char.toUpper)
  match ["JAN", "FEB", "MAR", "APR", "MAY", "JUN", "JUL", "AUG", "SEP", "OCT", "NOV", "DEC"].idxOf? name with
  | some k => k + 1
  | none => 0

/-- Compares texts in which numbers count as numbers. -/
def compareVersions : (fuel : Nat) → Raw → Raw → Ordering
  | 0, _, _ => .eq
  | fuel + 1, a, b =>
    let order (c? : Option Char) : Int :=
      match c? with
      | none => 0
      | some c =>
        if c.isDigit then 0 else if c.isAlpha then c.toNat else if c = '~' then -1 else c.toNat + 256
    if a = [] ∧ b = [] then .eq
    else if a.head?.any (!·.isDigit) ∨ b.head?.any (!·.isDigit) then
      match compare (order a.head?) (order b.head?) with
      | .eq => compareVersions fuel (a.drop 1) (b.drop 1)
      | o => o
    else
      let x := a.takeWhile Char.isDigit
      let y := b.takeWhile Char.isDigit
      match compare ((Raw.nat? x).getD 0) ((Raw.nat? y).getD 0) with
      | .eq => compareVersions fuel (a.drop x.length) (b.drop y.length)
      | o => o

def compareTexts (a b : Raw) : Ordering := if a < b then .lt else if b < a then .gt else .eq

/-- Compares parts of lines in the ways that letters ask for. -/
def compareParts (ways : List Char) (a b : Raw) : Ordering :=
  let kept (c : Char) : Bool :=
    (!ways.contains 'd' || c.isAlphanum || SortKey.isBlank c) && (!ways.contains 'i' || Quote.isShown c)
  let plain (t : Raw) : Raw :=
    let t := if ways.contains 'd' || ways.contains 'i' then t.filter kept else t
    if ways.contains 'f' then t.map Char.toUpper else t
  let order :=
    if ways.contains 'n' then compareDecimals a b
    else if ways.contains 'g' then compareNumbers a b
    else if ways.contains 'h' then compareSizes a b
    else if ways.contains 'M' then compare (monthOf a) (monthOf b)
    else if ways.contains 'V' then compareVersions (a.length + b.length + 1) a b
    else compareTexts (plain a) (plain b)
  if ways.contains 'r' then order.swap else order

/-- How lines are compared: by keys, and at last as a whole. -/
structure SortPlan where
  keys : List SortKey
  separator? : Option Char
  keysOnly : Bool
  reversed : Bool -- whether the comparison of whole lines is turned around

namespace SortPlan

def byKeys (p : SortPlan) (a b : Raw) : Ordering :=
  p.keys.foldl (fun o k =>
    match o with
    | .eq => compareParts k.ways (k.part p.separator? a) (k.part p.separator? b)
    | o => o) .eq

def order (p : SortPlan) (a b : Raw) : Ordering :=
  match p.byKeys a b with
  | .eq =>
    if !p.keys.isEmpty ∧ p.keysOnly then .eq
    else
      let o := compareTexts a b
      if p.reversed then o.swap else o
  | o => o

end SortPlan

/-- Reads the end of a key that counts fields: `2`, `2.3`, with letters behind. -/
def keyEnd (origin : String) (text : Raw) : Except Raw (Nat × Option Nat × Raw) := do
  let number (t : Raw) (what : String) : Except Raw (Nat × Raw) :=
    let ds := t.takeWhile Char.isDigit
    match Raw.nat? ds with
    | some n => .ok (n, t.drop ds.length)
    | none => .error (what.toList ++ ": invalid count at start of ".toList ++ Quote.shown t)
  let (field, rest) ← number text ("invalid number " ++ origin)
  match rest with
  | '.' :: rest =>
    let (char, rest) ← number rest "invalid number after '.'"
    return (field, some char, rest)
  | rest => return (field, none, rest)

/-- Reads a key such as `2,3n`; `usual` is what holds where the key says nothing of its own. -/
def sortKey (usual : List Char) (text : Raw) : Except Raw SortKey := do
  let invalid (problem : String) : Except Raw SortKey :=
    .error (problem.toList ++ ": invalid field specification ".toList ++ Quote.shown text)
  let isWay (c : Char) : Bool := "bdfghiMnRrV".toList.contains c
  let (field, char?, rest) ← keyEnd "at field start" text
  if field = 0 then return ← invalid "field number is zero"
  if char? = some 0 then return ← invalid "character offset is zero"
  let firstWays := rest.takeWhile isWay
  let k : SortKey := { firstField := field - 1, firstChar := char?.getD 1 - 1 }
  let (k, lastWays, rest) ←
    match rest.drop firstWays.length with
    | ',' :: rest => do
      let (field, char?, rest) ← keyEnd "after ','" rest
      if field = 0 then
        throw ("field number is zero: invalid field specification ".toList ++ Quote.shown text)
      let lastWays := rest.takeWhile isWay
      pure ({ k with lastField? := some (field - 1), lastChar := char?.getD 0 }, lastWays,
        rest.drop lastWays.length)
    | rest => pure (k, [], rest)
  if rest ≠ [] then return ← invalid "stray character in field spec"
  let own := firstWays ++ lastWays
  if own = [] then
    return { k with ways := usual, skipsFirst := usual.contains 'b', skipsLast := usual.contains 'b' }
  return { k with ways := own, skipsFirst := firstWays.contains 'b', skipsLast := lastWays.contains 'b' }

/-- Drops lines that equal the one before. -/
def distinctBy (same : Raw → Raw → Bool) : List Raw → List Raw
  | a :: b :: rest =>
    if same a b then distinctBy same (a :: rest) else a :: distinctBy same (b :: rest)
  | ls => ls
termination_by ls => ls.length

/-- The first line that is not in its place, with its number. -/
def firstDisorder? (bad : Raw → Raw → Bool) : (n : Nat) → List Raw → Option (Nat × Raw)
  | n, a :: b :: rest => if bad a b then some (n + 1, b) else firstDisorder? bad (n + 1) (b :: rest)
  | _, _ => none

/-- Replaces old-style keys such as `+1 -2` by options. -/
def modernKeys : List Raw → List Raw
  | [] => []
  | ['-', '-'] :: rest => ['-', '-'] :: rest
  | a :: rest =>
    -- the field, the character and the letters behind
    let position? (t : Raw) : Option (Nat × Nat × Raw) :=
      let field := t.takeWhile Char.isDigit
      let t := t.drop field.length
      (Raw.nat? field).bind fun f =>
        match t with
        | '.' :: t =>
          let char := t.takeWhile Char.isDigit
          (Raw.nat? char).map fun c => (f, c, t.drop char.length)
        | t => some (f, 0, t)
    let shown (f c : Nat) (letters : Raw) : Raw :=
      Raw.ofNat f ++ (if c = 0 then [] else '.' :: Raw.ofNat c) ++ letters
    match a with
    | '+' :: t =>
      match position? t with
      | none => a :: modernKeys rest
      | some (f, c, letters) =>
        if !letters.all "bdfghiMnRrV".toList.contains then a :: modernKeys rest
        else
          let start := shown (f + 1) (if c = 0 then 0 else c + 1) letters
          match rest with
          | ('-' :: d :: u) :: rest =>
            match if d.isDigit then position? (d :: u) else none with
            | some (g, e, more) =>
              "-k".toList :: (start ++ ',' :: shown (if e = 0 then g else g + 1) e more) :: modernKeys rest
            | none => "-k".toList :: start :: modernKeys (('-' :: d :: u) :: rest)
          | rest => "-k".toList :: start :: modernKeys rest
    | a => a :: modernKeys rest

/-- `sort`: sorts lines. -/
def sort : Utility := fun name arguments => withTable
    { flags := "bdfghiMnRrVucCmsz", valued := "kotST", optional := "\x03"
      long := [("ignore-leading-blanks", 'b'), ("dictionary-order", 'd'), ("ignore-case", 'f'),
       ("general-numeric-sort", 'g'), ("human-numeric-sort", 'h'), ("ignore-nonprinting", 'i'),
       ("month-sort", 'M'), ("numeric-sort", 'n'), ("reverse", 'r'), ("version-sort", 'V'),
       ("unique", 'u'), ("merge", 'm'), ("stable", 's'), ("zero-terminated", 'z'), ("key", 'k'),
       ("output", 'o'), ("field-separator", 't'), ("check", '\x03')] } (fun name o => do
  let usual := "bdfghiMnRrV".toList.filter o.has
  let refuse (message : Raw) : Run Nat := do
    complain name message
    return 2
  let separator? ← match o.value? 't' with
    | none => pure none
    | some [] => return ← refuse "empty tab".toList
    | some [c] => pure (some c)
    | some ['\\', '0'] => pure (some '\x00')
    | some t => return ← refuse ("multi-character tab ".toList ++ Quote.shown t)
  match (o.values 'k').mapM (sortKey usual) with
  | .error message => refuse message
  | .ok keys =>
    let ordering := usual.filter (· ≠ 'r')
    let keys := if keys.isEmpty ∧ ordering ≠ [] then
        [{ ways := usual, skipsFirst := o.has 'b', skipsLast := o.has 'b' }] else keys
    let plan : SortPlan :=
      { keys, separator?, keysOnly := o.has 'u' || o.has 's', reversed := o.has 'r' }
    let ending : Char := if o.has 'z' then '\x00' else '\n'
    let quiet? : Option Bool ← match o.last? "cC\x03" with
      | none => pure none
      | some 'c' => pure (some false)
      | some 'C' => pure (some true)
      | some _ =>
        let given := (o.value? '\x03').getD []
        if given = [] ∨ given.isPrefixOf "diagnose-first".toList then pure (some false)
        else if given.isPrefixOf "quiet".toList ∨ given.isPrefixOf "silent".toList then pure (some true)
        else
          return ← complainChoice name "check".toList given ["quiet', 'silent", "diagnose-first"]
    if quiet?.isSome then
      if let some extra := o.operands[1]? then
        return ← refuse ("extra operand ".toList ++ Quote.shown extra ++ " not allowed with -".toList
          ++ (if quiet? = some true then ['C'] else ['c']))
    else
      -- all files are looked at before any of them is read
      for file in o.operands do
        if file ≠ ['-'] then
          let m ← get
          let unreadable? : Option IoError := match m.store.stat? m.environment.cwd (Raw.path file) with
            | .error e => some e
            | .ok (_, e) => if m.store.allows e .read then none else some (.os .denied)
          if let some e := unreadable? then
            return ← refuse ("cannot read: ".toList ++ Quote.ifNeeded true file ++ ": ".toList
              ++ (refusalText e).toList)
    let mut lists := #[]
    for file in inputFiles o.operands do
      match ← inputOf file with
      | .ok data => lists := lists.push (recordsOf ending (Raw.ofBytes data))
      | .error e =>
        let task := if e = .os .isDirectory then "read failed: " else "open failed: "
        return ← refuse (task.toList ++ Quote.ifNeeded true file ++ ": ".toList
          ++ (refusalText e).toList)
    let same (a b : Raw) : Bool := plan.order a b = .eq
    if let some quiet := quiet? then
      let bad (a b : Raw) : Bool :=
        plan.order a b = .gt || (o.has 'u' && same a b)
      match firstDisorder? bad 1 lists.toList.flatten with
      | none => return 0
      | some (n, line) =>
        if !quiet then
          complain name (o.operands.headD ['-'] ++ ":".toList ++ Raw.ofNat n ++ ": disorder: ".toList
            ++ line)
        return 1
    let inOrder (a b : Raw) : Bool := plan.order a b ≠ .gt
    let sorted := if o.has 'm' then lists.toList.foldr (fun a b => a.merge b inOrder) []
      else lists.toList.flatten.mergeSort inOrder
    let sorted := if o.has 'u' then distinctBy same sorted else sorted
    let text := sorted.flatMap (· ++ [ending])
    match o.value? 'o' with
    | none => putText text 2
    | some target =>
      match ← openOutput .anew (Raw.path target) with
      | .ok c => withChannel 1 c (putText text 2)
      | .error e =>
        return ← refuse ("open failed: ".toList ++ Quote.ifNeeded true target ++ ": ".toList
          ++ (refusalText e).toList)
    return 0) 2 name (modernKeys arguments)

end LuaTree.Shell.Utility

import LuaTree.Shell.Utility.Sort

/-!
# Files side by side, in order

`comm` tells which lines two sorted files have in common, `join` puts together the lines that have a field in
common. Both go through two files at once and always take the line that comes first. Files that are not sorted
are gone through all the same; whoever reads on past a line that has no partner looks at the order as well.
-/

namespace LuaTree.Shell.Utility

open Run

/-- When the order of the lines is looked at. -/
inductive OrderCheck where
  | never
  | onceUnpaired -- as soon as a line has had no partner
  | always -- always, and a line out of order ends everything
  deriving DecidableEq

/-- What has come of going through two files. -/
structure Merged (α : Type) where
  rows : List α := [] -- the rows, the last one first
  complaints : List Raw := [] -- what there is to complain about, the last complaint first
  isUnpaired : Bool := false -- whether a line has had no partner
  disordered : List Nat := [] -- the numbers of the files that are known to be out of order

/-- Goes through files; a complaint can end that. -/
abbrev Merging (α : Type) := EStateM Raw (Merged α)

namespace Merging

def row {α : Type} (a : α) : Merging α Unit := modify fun m => { m with rows := a :: m.rows }

/-- Remembers that a line has no partner. -/
def unpaired {α : Type} : Merging α Unit := modify fun m => { m with isUnpaired := true }

/-- Complains about a file the first time that it turns out to be out of order. -/
def verify {α : Type} (check : OrderCheck) (file : Nat) (isWrong : Bool) (message : Raw) : Merging α Unit := do
  let m ← get
  if isWrong ∧ !m.disordered.contains file ∧ (check = .always ∨ (check = .onceUnpaired ∧ m.isUnpaired)) then
    if check = .always then throw message
    set { m with disordered := file :: m.disordered, complaints := message :: m.complaints }

/-- Goes through files: the rows, the complaints, and whether all is well. -/
def outcome {α : Type} (act : Merging α Unit) : List α × List Raw × Bool :=
  match act.run {} with
  | .ok _ m =>
    let final := if m.disordered = [] then [] else ["input is not in sorted order".toList]
    (m.rows.reverse, m.complaints.reverse ++ final, m.disordered.isEmpty)
  | .error message m => (m.rows.reverse, m.complaints.reverse ++ [message], false)

end Merging

/-! ## Common lines -/

/-- Where a line of `comm` stands. -/
inductive Side where
  | left -- in the first file only
  | right -- in the second file only
  | both
  deriving DecidableEq

/-- Goes on to the next line of a file; `before?` is the line before the present one. -/
def nextLine (check : OrderCheck) (file : Nat) (before? : Option Raw) :
    List Raw → Merging (Side × Raw) (Option Raw × List Raw)
  | [] => return (before?, [])
  | a :: rest => do
    let isWrong : Bool := match rest with
      | [] => before?.any (a < ·)
      | b :: _ => b < a
    Merging.verify check file isWrong ("file ".toList ++ Raw.ofNat file ++ " is not in sorted order".toList)
    return (some a, rest)

/-- Tells the lines of two files apart; with each file goes the line before the present one. -/
def tellApart (check : OrderCheck) : (fuel : Nat) → Option Raw × List Raw → Option Raw × List Raw →
    Merging (Side × Raw) Unit
  | 0, _, _ => return ()
  | _ + 1, (_, []), (_, []) => return ()
  | fuel + 1, (p?, as), (q?, bs) => do
    let order : Ordering := match as, bs with
      | [], _ => .gt
      | _, [] => .lt
      | a :: _, b :: _ => compareTexts a b
    match order with
    | .eq => Merging.row (.both, bs.headD [])
    | .lt => Merging.row (.left, as.headD [])
    | .gt => Merging.row (.right, bs.headD [])
    if order ≠ .eq then Merging.unpaired
    let left ← if order ≠ .gt then nextLine check 1 p? as else pure (p?, as)
    let right ← if order ≠ .lt then nextLine check 2 q? bs else pure (q?, bs)
    tellApart check fuel left right

def orderCheck (o : Options) : OrderCheck :=
  match o.last? "\x03\x04" with
  | some '\x03' => .always
  | some _ => .never
  | none => .onceUnpaired

def orderNames : List (String × Char) := [("check-order", '\x03'), ("nocheck-order", '\x04')]

/-- The records of two files, or nothing if one of them cannot be read, which is complained about. -/
def bothFiles (ending : Char) (failed : Raw → IoError → Run Unit) (a b : Raw) :
    Run (Option (List Raw × List Raw)) := do
  let records (file : Raw) : Run (Option (List Raw)) := do
    match ← inputOf file with
    | .ok data => return some (recordsOf ending (Raw.ofBytes data))
    | .error e =>
      failed file e
      return none
  match ← records a with
  | none => return none
  | some as =>
    match ← records b with
    | none => return none
    | some bs => return some (as, bs)

/-- `comm`: tells which lines two sorted files have in common. -/
def comm : Utility := withOptions "123z\x03\x04\x05" "O"
    ([("output-delimiter", 'O'), ("total", '\x05'), ("zero-terminated", 'z')] ++ orderNames) fun name o => do
  match o.operands with
  | [] => complainMissing name
  | [a] => complainUsage name ("missing operand after ".toList ++ Quote.shown a)
  | _ :: _ :: c :: _ => complainExtra name c
  | [a, b] =>
    let ending : Char := if o.has 'z' then '\x00' else '\n'
    match ← bothFiles ending (complainFile name) a b with
    | none => return 1
    | some (as, bs) =>
      let (rows, complaints, isFine) :=
        (tellApart (orderCheck o) (as.length + bs.length + 1) (none, as) (none, bs)).outcome
      let separator := match o.value? 'O' with
        | some [] => ['\x00']
        | some t => t
        | none => ['\t']
      let (skip1, skip2, skip3) := (o.has '1', o.has '2', o.has '3')
      for (side, t) in rows do
        let indent : Nat :=
          match side with
          | .left => 0
          | .right => if skip1 then 0 else 1
          | .both => (if skip1 then 0 else 1) + if skip2 then 0 else 1
        let skipped := match side with
          | .left => skip1
          | .right => skip2
          | .both => skip3
        if !skipped then putText ((List.replicate indent separator).flatten ++ t ++ [ending])
      if o.has '\x05' ∧ (isFine ∨ orderCheck o ≠ .always) then
        let total (s : Side) : Raw := Raw.ofNat (rows.countP (·.1 = s))
        putText (separator.intercalate [total .left, total .right, total .both, "total".toList] ++ [ending])
      for c in complaints do complain name c
      return if isFine then 0 else 1

/-! ## Common fields -/

/-- A line of a file that is joined to another one. -/
structure JoinRow where
  number : Nat
  text : Raw
  fields : List Raw
  key : Raw
  deriving Inhabited

/-- A field that is written. -/
inductive JoinField where
  | key
  -- a field of the first file or of the second one, counted from zero
  | of (isFirst : Bool) (place : Nat)

/-- How `join` puts lines together. -/
structure Joining where
  files : Raw × Raw
  check : OrderCheck
  folds : Bool -- whether the case of letters makes no difference
  pairs : Bool -- whether lines with a partner are written
  -- whether lines of the first file and of the second one without a partner are written
  singles : Bool × Bool
  places : Nat × Nat
  format? : Option (List JoinField) -- the fields that are written, if they are chosen
  counts? : Option (Nat × Nat) -- how many fields of each file are written, if that is fixed
  filler : Raw -- what stands for an empty field
  separator? : Option Char

namespace Joining

def blankFields : (fuel : Nat) → Raw → List Raw
  | 0, _ => []
  | fuel + 1, t =>
    let isBlank (c : Char) : Bool := c = ' ' || c = '\t' || c = '\n'
    let field := t.takeWhile (!isBlank ·)
    if field.length = t.length then [field]
    else field :: blankFields fuel ((t.drop field.length).dropWhile isBlank)

def fieldsOf (k : Joining) (line : Raw) : List Raw :=
  match k.separator? with
  | some '\n' => if line = [] then [] else [line]
  | some c => if line = [] then [] else line.splitOn c
  | none =>
    let t := line.dropWhile fun c => c = ' ' || c = '\t' || c = '\n'
    if t = [] then [] else blankFields (t.length + 1) t

/-- The lines of the first file or the second one. -/
def rows (k : Joining) (isFirst : Bool) (ls : List Raw) : List JoinRow :=
  ls.zipIdx.map fun (text, n) =>
    let fields := k.fieldsOf text
    { number := n + 1, text, fields, key := fields.getD (if isFirst then k.places.1 else k.places.2) [] }

/-- Compares lines by the fields that count. -/
def order (k : Joining) (a b : JoinRow) : Ordering :=
  let folded (t : Raw) : Raw := if k.folds then t.map Char.toUpper else t
  compareTexts (folded a.key) (folded b.key)

/-- A line of output made of lines that belong together. -/
def shown (k : Joining) (a? b? : Option JoinRow) : Raw :=
  let filled (t? : Option Raw) : Raw := (t?.filter (· ≠ [])).getD k.filler
  let key? := (a?.bind fun a => a.fields[k.places.1]?).or
    (if a?.isSome then none else b?.bind fun b => b.fields[k.places.2]?)
  let field (isFirst : Bool) (n : Nat) : Raw :=
    filled ((if isFirst then a? else b?).bind fun r => r.fields[n]?)
  let others (isFirst : Bool) : List Raw :=
    let row? := if isFirst then a? else b?
    let place := if isFirst then k.places.1 else k.places.2
    let count := match k.counts? with
      | some (m, n) => if isFirst then m else n
      | none => (row?.map fun r => r.fields.length).getD 0
    ((List.range count).filter (· ≠ place)).map (field isFirst)
  let fields := match k.format? with
    | some fs => fs.map fun
      | .key => filled key?
      | .of isFirst n => field isFirst n
    | none => filled key? :: (others true ++ others false)
  [match k.separator? with
    | some '\n' | none => ' '
    | some c => c].intercalate fields

/-- Looks whether a line comes behind the one before it. -/
def verify (k : Joining) (isFirst : Bool) (a b : JoinRow) : Merging Raw Unit :=
  Merging.verify k.check (if isFirst then 1 else 2) (k.order a b = .gt)
    ((if isFirst then k.files.1 else k.files.2) ++ ":".toList ++ Raw.ofNat b.number ++ ": is not sorted: ".toList
      ++ b.text)

/-- Looks at the order of lines that follow each other. -/
def verifyAll (k : Joining) (isFirst : Bool) : List JoinRow → Merging Raw Unit
  | a :: b :: rest => do
    k.verify isFirst a b
    verifyAll k isFirst (b :: rest)
  | _ => return ()

/-- Goes through what is left of one file. -/
def finish (k : Joining) (isFirst : Bool) : List JoinRow → Merging Raw Unit
  | [] => return ()
  | a :: rest => do
    if if isFirst then k.singles.1 else k.singles.2 then
      Merging.row (if isFirst then k.shown (some a) none else k.shown none (some a))
    match rest with
    | b :: _ => k.verify isFirst a b
    | [] => pure ()
    finish k isFirst rest

def through (k : Joining) : (fuel : Nat) → List JoinRow → List JoinRow → Merging Raw Unit
  | 0, _, _ => return ()
  | _ + 1, [], bs => k.finish false bs
  | _ + 1, as, [] => k.finish true as
  | fuel + 1, a :: as, b :: bs => do
    match k.order a b with
    | .lt =>
      if k.singles.1 then Merging.row (k.shown (some a) none)
      k.verifyAll true ((a :: as).take 2)
      Merging.unpaired
      through k fuel as (b :: bs)
    | .gt =>
      if k.singles.2 then Merging.row (k.shown none (some b))
      k.verifyAll false ((b :: bs).take 2)
      Merging.unpaired
      through k fuel (a :: as) bs
    | .eq =>
      let lefts := (a :: as).takeWhile fun r => k.order r b = .eq
      let rights := (b :: bs).takeWhile fun r => k.order a r = .eq
      k.verifyAll true ((a :: as).take (lefts.length + 1))
      k.verifyAll false ((b :: bs).take (rights.length + 1))
      if k.pairs then
        for l in lefts do
          for r in rights do
            Merging.row (k.shown (some l) (some r))
      through k fuel ((a :: as).drop lefts.length) ((b :: bs).drop rights.length)

/-- Reads the choice of a field such as `1.2`. -/
def field? (t : Raw) : Except Raw JoinField :=
  let number (n : Raw) : Except Raw Nat :=
    match Raw.nat? n with
    | some (k + 1) => .ok k
    | _ => .error ("invalid field number: ".toList ++ Quote.shown n)
  match t with
  | ['0'] => .ok .key
  | '1' :: '.' :: n => (number n).map (.of true)
  | '2' :: '.' :: n => (number n).map (.of false)
  | '0' :: _ | '1' :: _ | '2' :: _ => .error ("invalid field specifier: ".toList ++ Quote.shown t)
  | _ => .error ("invalid file number in field spec: ".toList ++ Quote.shown t)

def ofOptions (o : Options) (a b : Raw) : Except Raw Joining := do
  let separator? ← match o.value? 't' with
    | none => pure none
    | some [] => pure (some '\n')
    | some [c] => pure (some c)
    | some ['\\', '0'] => pure (some '\x00')
    | some t => throw ("multi-character tab ".toList ++ Quote.shown t)
  let place (t? : Option Raw) : Except Raw Nat :=
    match t?.map fun t => (t, Raw.nat? t) with
    | none => .ok 0
    | some (_, some (n + 1)) => .ok n
    | some (t, _) => .error ("invalid field number: ".toList ++ Quote.shown t)
  let numbers := o.values 'a' ++ o.values 'v'
  if let some t := numbers.find? fun t => t ≠ ['1'] ∧ t ≠ ['2'] then
    throw ("invalid field number: ".toList ++ Quote.shown t)
  let formats := (o.values 'o').filter (· ≠ "auto".toList)
  let fields ← (formats.flatMap fun t => t.splitOnP fun c => c = ',' || c = ' ' || c = '\t').mapM field?
  return {
    files := (a, b), check := orderCheck o, folds := o.has 'i', pairs := !o.has 'v'
    singles := (numbers.contains ['1'], numbers.contains ['2'])
    places := (← place ((o.value? '1').or (o.value? 'j')), ← place ((o.value? '2').or (o.value? 'j')))
    format? := if formats = [] then none else some fields
    counts? := none
    filler := (o.value? 'e').getD []
    separator? }

end Joining

/-- `join`: puts the lines of two sorted files together that have a field in common. -/
def join : Utility := withOptions "iz\x03\x04\x05" "12jtavoe"
    ([("ignore-case", 'i'), ("zero-terminated", 'z'), ("header", '\x05')] ++ orderNames) fun name o => do
  match o.operands with
  | [] => complainMissing name
  | [a] => complainUsage name ("missing operand after ".toList ++ Quote.shown a)
  | _ :: _ :: c :: _ => complainExtra name c
  | [a, b] =>
    match Joining.ofOptions o a b with
    | .error message =>
      complain name message
      return 1
    | .ok k =>
      let ending : Char := if o.has 'z' then '\x00' else '\n'
      if a = ['-'] ∧ b = ['-'] then
        complain name "both files cannot be standard input".toList
        return 1
      let failed (file : Raw) (e : IoError) : Run Unit :=
        if e = .os .isDirectory then complain name ("read error: ".toList ++ (refusalText e).toList)
        else complainFile name file e
      match ← bothFiles ending failed a b with
      | none => return 1
      | some (as, bs) =>
        let left := k.rows true as
        let right := k.rows false bs
        let count (rows : List JoinRow) : Nat := (rows.head?.map fun r => r.fields.length).getD 0
        let k := if (o.value? 'o') = some "auto".toList then { k with counts? := some (count left, count right) } else k
        let headed := o.has '\x05'
        let (rows, complaints, isFine) := Merging.outcome (do
          if headed ∧ (left ≠ [] ∨ right ≠ []) then Merging.row (k.shown left.head? right.head?)
          let skipped := if headed then 1 else 0
          k.through (left.length + right.length + 1) (left.drop skipped) (right.drop skipped))
        putText (rows.flatMap (· ++ [ending]))
        for c in complaints do complain name c
        return if isFine then 0 else 1

end LuaTree.Shell.Utility

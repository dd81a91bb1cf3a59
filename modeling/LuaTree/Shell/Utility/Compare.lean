import LuaTree.Shell.Pattern
import LuaTree.Shell.Utility.Clock
import LuaTree.Shell.Utility.Difference

/-!
# Utilities that compare files

Byte by byte (`cmp`), and line by line (`diff`).
-/

namespace LuaTree.Shell.Utility

open Run

/-- Writes a message, and points to the help text under the name of the utility. -/
def complainTool (name message : Raw) : Run Nat := do
  complain name message
  complain name ("Try '".toList ++ name ++ " --help' for more information.".toList)
  return 2

/-- Reads options of a utility that compares, and goes on with them and with the arguments. -/
def withComparison (k : OptionTable) (act : Raw → List Raw → Options → Run Nat) : Utility :=
  fun name arguments => do
    match k.read {} arguments with
    | .ok o => act name arguments o
    | .error message => complainTool name message

/-! ## Byte by byte -/

/-- A byte as a character, with marks for those that cannot be shown. -/
def markedByte (b : UInt8) : Raw :=
  let low (b : UInt8) : Raw :=
    if b < 32 then ['^', Char.ofUInt8 (b + 64)] else if b = 127 then ['^', '?'] else [Char.ofUInt8 b]
  if b < 128 then low b else 'M' :: '-' :: low (b - 128)

/-- An octal number of three places, filled up with blanks. -/
def octalColumn (b : UInt8) : Raw :=
  let t := Nat.toDigits 8 b.toNat
  List.replicate (3 - t.length) ' ' ++ t

/-- The places at which bytes differ, beginning with a number. -/
def differences (n : Nat) : Bytes → Bytes → List (Nat × UInt8 × UInt8)
  | a :: as, b :: bs =>
    if a = b then differences (n + 1) as bs else (n, a, b) :: differences (n + 1) as bs
  | _, _ => []

def newlines (data : Bytes) : Nat := data.countP (· = 10)

/-- `cmp`: tells where two files begin to differ. -/
def cmp : Utility := withComparison
    { flags := "bcls", valued := "in"
      long := [("print-bytes", 'b'), ("print-chars", 'c'), ("ignore-initial", 'i'), ("verbose", 'l'),
        ("bytes", 'n'), ("quiet", 's'), ("silent", 's')] } fun name arguments o => do
  if o.has 'l' ∧ o.has 's' then return ← complainTool name "options -l and -s are incompatible".toList
  let bad (option given : Raw) : Run Nat :=
    complainTool name ("invalid --".toList ++ option ++ " value ".toList ++ Quote.shown given)
  let skips : Option (Nat × Nat) ← match o.value? 'i' with
    | none => pure (some (0, 0))
    | some t =>
      let first := t.takeWhile (· ≠ ':')
      let second := if first.length < t.length then t.drop (first.length + 1) else first
      pure ((Raw.nat? first).bind fun a => (Raw.nat? second).map fun b => (a, b))
  let some skips := skips | bad "ignore-initial".toList ((o.value? 'i').getD [])
  let most? ← match o.value? 'n' with
    | none => pure none
    | some t =>
      match Raw.nat? t with
      | some n => pure (some n)
      | none => return ← bad "bytes".toList t
  let (left, right, skips, extra) ← match o.operands with
    | [] => return ← complainTool name ("missing operand after ".toList ++ Quote.shown (arguments.getLastD name))
    | [a] => pure (a, "-".toList, skips, [])
    | [a, b] => pure (a, b, skips, [])
    | [a, b, n] => pure (a, b, ((Raw.nat? n).getD 0, skips.2), [])
    | a :: b :: n :: k :: more => pure (a, b, ((Raw.nat? n).getD 0, (Raw.nat? k).getD 0), more)
  if let e :: _ := extra then return ← complainTool name ("extra operand ".toList ++ Quote.shown e)
  if left = right then
    if left = ['-'] then return 0
  let readAs (p : Raw) : Run (Option Bytes) := do
    match ← inputOf p with
    | .ok data => return some data
    | .error e =>
      if !o.has 's' then complain name (p ++ ": ".toList ++ (refusalText e).toList)
      return none
  let some a ← readAs left | return 2
  let some b ← readAs right | return 2
  let cut (data : Bytes) : Bytes := match most? with
    | some n => data.take n
    | none => data
  let a := cut (a.drop skips.1)
  let b := cut (b.drop skips.2)
  let found := differences 1 a b
  if !o.has 's' then
    if o.has 'l' then
      let width := (Raw.ofNat (max a.length b.length)).length
      for (n, x, y) in found do
        let shown := o.has 'b' || o.has 'c'
        let byte (x : UInt8) : Raw :=
          if shown then octalColumn x ++ ' ' :: markedByte x else octalColumn x
        let first := byte x
        let fill := if shown then List.replicate (8 - first.length) ' ' else []
        putLine (column (if most?.isSome then (Raw.ofNat (most?.getD 0)).length else width) n
          ++ ' ' :: first ++ fill ++ ' ' :: byte y) 2
    else
      if let (n, x, y) :: _ := found then
        let line := newlines (a.take (n - 1)) + 1
        let shown := o.has 'b' || o.has 'c'
        let byte (x : UInt8) : Raw := octalColumn x ++ ' ' :: markedByte x
        let bytes : Raw := if shown then " is ".toList ++ byte x ++ ' ' :: byte y else []
        putLine (left ++ ' ' :: right ++ " differ: ".toList ++ (if shown then "byte " else "char ").toList
          ++ Raw.ofNat n ++ ", line ".toList ++ Raw.ofNat line ++ bytes) 2
  if found ≠ [] ∧ !o.has 'l' then return 1
  if a.length ≠ b.length then
    if !o.has 's' then
      let (file, data) := if a.length < b.length then (left, a) else (right, b)
      let place : Raw :=
        if data = [] then " which is empty".toList
        else
          let count := " after byte ".toList ++ Raw.ofNat data.length
          if o.has 'l' then count
          else if data.getLast? = some 10 then count ++ ", line ".toList ++ Raw.ofNat (newlines data)
          else count ++ ", in line ".toList ++ Raw.ofNat (newlines data + 1)
      complain name ("EOF on ".toList ++ file ++ place)
    return 1
  return if found = [] then 0 else 1

/-! ## Line by line -/

/-- How differences are written. -/
inductive DifferenceForm where
  | plain
  | unified (context : Nat) -- both sides in one, with so many lines around them
  | inContext (context : Nat) -- one side behind the other, with so many lines around them
  | columns (k : Difference.Columns) -- both texts side by side
  | brief -- not at all; it is said that there are some

/-- How `diff` compares. -/
structure Comparison where
  name : Raw
  o : Options
  switches : List Raw
  form : DifferenceForm

/-- What stands under a name: nothing, a directory, or what can be read. -/
inductive Compared where
  | missing
  | directory (loc : Location)
  | file (data : Bytes) (kind : String) (written : Moment)

def isSame : Compared → Compared → Bool
  | .directory x, .directory y => x = y
  | _, _ => false

namespace Comparison

def key (o : Options) (isComplete : Bool) (t : Raw) : Raw :=
  let blank (c : Char) : Bool := c = ' ' || c = '\t' || c = '\r' || c = '\x0b' || c = '\x0c'
  let cut (t : Raw) : Raw := (t.reverse.dropWhile blank).reverse
  let t := if o.has 'Q' ∧ t.getLast? = some '\r' then t.dropLast else t
  let t := if o.has 'i' then t.map Char.toLower else t
  let t := if o.has 'w' then t.filter (!blank ·)
    else if o.has 'b' then
      (cut t).foldr (fun c rest => if blank c then (if rest.head? = some ' ' then rest else ' ' :: rest)
        else c :: rest) []
    else if o.has 'Z' then cut t
    else if o.has 'E' then
      (t.foldl (fun (u : Raw) c => if c = '\t' then u ++ List.replicate (8 - u.length % 8) ' ' else u ++ [c]) [])
    else t
  let isLoose := o.has 'w' || o.has 'b' || o.has 'Z'
  if isComplete ∨ isLoose then t else t ++ ['\n']

def header (mark : String) (label? : Option Raw) (file : Raw) (written : Raw) : Raw :=
  mark.toList ++ ' ' :: (label?.getD (file ++ '\t' :: written)) ++ ['\n']

/-- Compares the contents of two files; `headed` tells whether they are named before the differences. -/
def contents (k : Comparison) (headed : Bool) (left right : Raw) (a b : Bytes) (at1 at2 : Moment) :
    Run Nat := do
  let same : Run Nat := do
    if k.o.has 's' then
      putLine ("Files ".toList ++ left ++ " and ".toList ++ right ++ " are identical".toList) 2
    return 0
  if a = b then
    match k.form with
    | .columns columns =>
      let ls := Difference.linesOf (key k.o) (Raw.ofBytes a)
      putText (columns.text ls ls []) 2
    | _ => pure ()
    return ← same
  let differ : Run Nat := do
    putLine ("Files ".toList ++ left ++ " and ".toList ++ right ++ " differ".toList) 2
    return 1
  if !k.o.has 'a' ∧ (a.contains 0 ∨ b.contains 0) then
    match k.form with
    | .brief => return ← differ
    | _ =>
      putLine ("Binary files ".toList ++ left ++ " and ".toList ++ right ++ " differ".toList) 2
      return 1
  let leftLines := Difference.linesOf (key k.o) (Raw.ofBytes a)
  let rightLines := Difference.linesOf (key k.o) (Raw.ofBytes b)
  let found := Difference.hunks leftLines rightLines
  let isBlank (ls : Array Difference.Line) (first count : Nat) : Bool :=
    ((ls.toList.drop first).take count).all fun l => l.text = []
  let found := if k.o.has 'B' then
      found.filter fun h =>
        !(isBlank leftLines h.left h.leftCount && isBlank rightLines h.right h.rightCount)
    else found
  if found = [] then
    match k.form with
    | .columns columns => putText (columns.text leftLines rightLines []) 2
    | _ => pure ()
    return ← same
  if headed then
    match k.form with
    | .brief => pure ()
    | _ => putLine ([' '].intercalate ("diff".toList :: (k.switches ++ [left, right]).map
        fun t => Quote.ifNeeded false t)) 2
  let labels := k.o.values 'L'
  match k.form with
  | .brief => return ← differ
  | .plain => putText (found.flatMap fun h => h.plain leftLines rightLines) 2
  | .unified context =>
    let time (m : Moment) : Raw := m.format "%Y-%m-%d %H:%M:%S.%N %z".toList
    putText (header "---" labels[0]? left (time at1) ++ header "+++" labels[1]? right (time at2)
      ++ (Difference.grouped context found).flatMap (Difference.unified context leftLines rightLines)) 2
  | .inContext context =>
    let time (m : Moment) : Raw := m.format "%c".toList
    putText (header "***" labels[0]? left (time at1) ++ header "---" labels[1]? right (time at2)
      ++ (Difference.grouped context found).flatMap (Difference.inContext context leftLines rightLines)) 2
  | .columns columns => putText (columns.text leftLines rightLines found) 2
  return 1

/-- Looks up and reads a file; says so if that cannot be done. -/
def side (k : Comparison) (file : Raw) (excused : Bool) : Run (Option Compared) := do
  if file = ['-'] then
    match ← inputOf file with
    | .ok data => return some (.file data "" (← presentMoment))
    | .error e =>
      complain k.name (file ++ ": ".toList ++ (refusalText e).toList)
      return none
  match ← targetOf file with
  | .error e =>
    if excused ∧ e = .os .noEntry then return some .missing
    complain k.name (file ++ ": ".toList ++ (refusalText e).toList)
    return none
  | .ok (loc, .dir _) => return some (.directory loc)
  | .ok (_, e) =>
    match ← inputOf file with
    | .ok data =>
      let m ← get
      return some (.file data (kindOf m.store e) (momentOf m e))
    | .error e =>
      complain k.name (file ++ ": ".toList ++ (refusalText e).toList)
      return none

/-- Compares two files, or all that two directories hold. -/
def run (k : Comparison) : (depth : Nat) → (headed : Bool) → (left right : Raw) → Run Nat
  | 0, _, _, _ => return 0
  | depth + 1, headed, left, right => do
    let a? ← k.side left (k.o.has 'N')
    let b? ← k.side right (k.o.has 'N')
    match a?, b? with
    | some a, some b =>
      match a, b with
      | .missing, .missing =>
        complain k.name (left ++ ": ".toList ++ Errno.noEntry.text.toList)
        complain k.name (right ++ ": ".toList ++ Errno.noEntry.text.toList)
        return 2
      | .file x _ m, .file y _ n => k.contents headed left right x y m n
      | .file x _ m, .missing => k.contents headed left right x [] m (Moment.ofSeconds 0)
      | .missing, .file y _ n => k.contents headed left right [] y (Moment.ofSeconds 0) n
      | .directory _, other | other, .directory _ =>
        match a, other with
        | .directory _, .file _ kind _ =>
          putLine ("File ".toList ++ left ++ " is a directory while file ".toList ++ right
            ++ " is a ".toList ++ kind.toList) 2
          return 1
        | .file _ kind _, _ =>
          putLine ("File ".toList ++ left ++ " is a ".toList ++ kind.toList ++ " while file ".toList ++ right
            ++ " is a directory".toList) 2
          return 1
        | _, _ =>
          if isSame a b then return 0
          if headed ∧ !k.o.has 'r' then
            putLine ("Common subdirectories: ".toList ++ left ++ " and ".toList ++ right) 2
            return 0
          let s := (← get).store
          let listed (x : Compared) : List Raw := match x with
            | .directory loc => (s.names loc).map Raw.ofPath
            | _ => []
          let (mine, yours) := (listed a, listed b)
          let names := (mine ++ yours.filter (!mine.contains ·)).mergeSort fun p q => !decide (q < p)
          let excluded := (k.o.values 'x').map fun p => Pattern.ofGlyphs (p.map fun c => ⟨c, false⟩)
          let names := names.filter fun n => !excluded.any (Pattern.accepts · n)
          let mut status := 0
          for n in names do
            let isLeft := mine.contains n
            if (isLeft ∧ yours.contains n) ∨ k.o.has 'N' then
              status := max status (← run k depth true (inside left n) (inside right n))
            else
              putLine ("Only in ".toList ++ (if isLeft then left else right) ++ ": ".toList ++ n) 2
              status := max status 1
          return status
    | _, _ => return 2

end Comparison

/-- `diff`: tells in which lines files differ. -/
def diff : Utility := withComparison
    { flags := "abBcdEilnNpqrsTtuwyZeJKQV0123456789", valued := "CUWLxIXFS", optional := "O"
      long := [("brief", 'q'), ("recursive", 'r'), ("ignore-case", 'i'), ("ignore-all-space", 'w'),
        ("ignore-space-change", 'b'), ("ignore-blank-lines", 'B'), ("ignore-trailing-space", 'Z'),
        ("ignore-tab-expansion", 'E'), ("text", 'a'), ("new-file", 'N'), ("report-identical-files", 's'),
        ("side-by-side", 'y'), ("width", 'W'), ("label", 'L'), ("exclude", 'x'), ("minimal", 'd'),
        ("suppress-common-lines", 'K'), ("strip-trailing-cr", 'Q'), ("normal", 'J'), ("color", 'O'),
        ("unified", 'u'), ("context", 'c'), ("show-c-function", 'p'), ("speed-large-files", 'V')] }
    fun name arguments o => do
  let bad (t : Raw) : Run Nat := complainTool name ("invalid context length ".toList ++ Quote.shown t)
  let amount (c : Char) : Run (Option Nat) := do
    match o.value? c with
    | none =>
      let digits := (o.given.map Prod.fst).filter Char.isDigit
      return some ((Raw.nat? digits).getD 3)
    | some t => return Raw.nat? t
  let some unified ← amount 'U' | bad ((o.value? 'U').getD [])
  let some context ← amount 'C' | bad ((o.value? 'C').getD [])
  let forms := [o.has 'u' || o.has 'U', o.has 'c' || o.has 'C' || (o.has 'p' && !o.has 'u' && !o.has 'U'),
    o.has 'y', o.has 'J']
  if 1 < forms.countP id then return ← complainTool name "conflicting output style options".toList
  let form : DifferenceForm :=
    if o.has 'q' then .brief
    else if o.has 'u' ∨ o.has 'U' then .unified unified
    else if forms.getD 1 false then .inContext context
    else if o.has 'y' then
      .columns (.ofWidth (((o.value? 'W').bind Raw.nat?).getD 130) (o.has 'K'))
    else .plain
  match o.operands with
  | [] | [_] => complainTool name ("missing operand after ".toList ++ Quote.shown (arguments.getLastD name))
  | _ :: _ :: c :: _ => complainTool name ("extra operand ".toList ++ Quote.shown c)
  | [left, right] =>
    let k : Comparison := { name, o, switches := arguments.filter (!o.operands.contains ·), form }
    if left = right ∧ left = ['-'] then return 0
    let isDirectoryLeft ← isDirectory left
    let isDirectoryRight ← isDirectory right
    let depth := 4096
    if isDirectoryLeft ∧ !isDirectoryRight ∧ (← targetOf right).toOption.isSome then
      k.run depth false (inside left (lastName right)) right
    else if isDirectoryRight ∧ !isDirectoryLeft ∧ (← targetOf left).toOption.isSome then
      k.run depth false left (inside right (lastName left))
    else k.run depth false left right

end LuaTree.Shell.Utility

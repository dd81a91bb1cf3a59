import LuaTree.Shell.Format
import LuaTree.Shell.Pattern
import LuaTree.Shell.Utility.Streams

/-!
# Utilities that work on characters

Translating single characters (`tr`), and bringing lines to a width (`fold`, `expand`, `unexpand`).
-/

namespace LuaTree.Shell.Utility

open Run

/-! ## Sets of characters -/

/-- A part of a set of characters as `tr` writes it. -/
inductive SetPart where
  | chars (cs : Raw)
  | named (name : String) (cs : Raw)
  -- a character several times; as often as it takes if no number is given
  | repeated (c : Char) (times? : Option Nat)
  deriving Inhabited

def allBytes : Raw := (List.range 256).map Char.ofNat

/-- A character in a set, which may be written with a backslash, and what follows it. -/
def setChar : Raw → Option (Char × Raw)
  | [] => none
  | ['\\'] => some ('\\', [])
  | '\\' :: c :: rest =>
    if Format.isOctal c then
      let (n, rest') := Format.octal 3 0 (c :: rest)
      if n < 256 then some (Char.ofNat n, rest')
      else
        let (n, rest') := Format.octal 2 0 (c :: rest)
        some (Char.ofNat n, rest')
    else
      let d := match c with
        | 'a' => '\x07'
        | 'b' => '\x08'
        | 'f' => '\x0c'
        | 'n' => '\n'
        | 'r' => '\r'
        | 't' => '\t'
        | 'v' => '\x0b'
        | c => c
      some (d, rest)
  | c :: rest => some (c, rest)

/-- A class, a repetition or an equivalence that stands in brackets, and what follows it. -/
def bracketed? (t : Raw) : Option (Except Raw SetPart × Raw) :=
  match t with
  | ':' :: rest =>
    let name := rest.takeWhile (· ≠ ':')
    match rest.drop name.length with
    | ':' :: ']' :: rest =>
      match Pattern.classRanges? (String.ofList name) with
      | some ranges =>
        let cs := allBytes.filter fun c => ranges.any fun (lo, hi) => lo ≤ c && c ≤ hi
        some (.ok (.named (String.ofList name) cs), rest)
      | none => some (.error ("invalid character class ".toList ++ Quote.shown name), rest)
    | _ => none
  | '=' :: c :: '=' :: ']' :: rest => some (.ok (.chars [c]), rest)
  | t =>
    match setChar t with
    | some (c, '*' :: rest) =>
      let digits := rest.takeWhile Char.isDigit
      match rest.drop digits.length with
      | ']' :: rest =>
        let n := if digits.head? = some '0' then (Format.octal digits.length 0 digits).1
          else (Raw.nat? digits).getD 0
        some (.ok (.repeated c (if n = 0 then none else some n)), rest)
      | _ => none
    | _ => none

def setParts : (fuel : Nat) → (read : List SetPart) → Raw → Except Raw (List SetPart)
  | 0, read, _ => .ok read.reverse
  | fuel + 1, read, t => do
    match t with
    | [] => return read.reverse
    | '[' :: inner =>
      match bracketed? inner with
      | some (part, rest) => return ← setParts fuel ((← part) :: read) rest
      | none => pure ()
    | _ => pure ()
    match setChar t with
    | none => return read.reverse
    | some (c, '-' :: rest) =>
      match setChar rest with
      | some (d, rest) =>
        if d < c then
          throw ("range-endpoints of ".toList ++ Quote.shown [c, '-', d]
            ++ " are in reverse collating sequence order".toList)
        let range := (List.range (d.toNat + 1 - c.toNat)).map fun k => Char.ofNat (c.toNat + k)
        setParts fuel (.chars range :: read) rest
      | none => setParts fuel (.chars ['-'] :: .chars [c] :: read) []
    | some (c, rest) => setParts fuel (.chars [c] :: read) rest

/-- The characters of a set; a repetition without a number fills it up to a size. -/
def setChars (size : Nat) (parts : List SetPart) : Raw :=
  let fixed := parts.foldl (fun n p =>
    n + match p with
      | .chars cs | .named _ cs => cs.length
      | .repeated _ times? => times?.getD 0) 0
  parts.flatMap fun
    | .chars cs | .named _ cs => cs
    | .repeated c times? => List.replicate (times?.getD (size - fixed)) c

/-- What `tr` does to characters. -/
structure Translation where
  drops : Char → Bool := fun _ => false
  image : Char → Char := id
  squeezes : Char → Bool := fun _ => false -- whether of equal neighbours only one is kept

def Translation.apply (k : Translation) (last? : Option Char) (t : Raw) : Array Char × Option Char :=
  t.foldl (fun (read, last?) c =>
    if k.drops c then (read, last?)
    else
      let c := k.image c
      if k.squeezes c && last? = some c then (read, last?) else (read.push c, some c)) (#[], last?)

def translated (k : Translation) : (fuel : Nat) → Option Char → Run (Except Errno Unit)
  | 0, _ => return .ok ()
  | fuel + 1, last? => do
    match ← readSome 0 blockSize with
    | .error e => return .error e
    | .ok [] => return .ok ()
    | .ok data =>
      let (text, last?) := k.apply last? (Raw.ofBytes data)
      putText text.toList
      translated k fuel last?

def translation (complement truncates : Bool) (first second : List SetPart) : Except Raw Translation := do
  let domain := setChars 0 first
  let domain := if complement then allBytes.filter (!domain.contains ·) else domain
  let images := setChars domain.length second
  let isCase : SetPart → Bool
    | .named name _ => name = "upper" || name = "lower"
    | _ => false
  let isClass : SetPart → Bool
    | .named _ _ => true
    | _ => false
  if second.any fun p => isClass p && !isCase p then
    throw ("when translating, the only character classes that may appear in\n".toList
      ++ "string2 are 'upper' and 'lower'".toList)
  if images = [] ∧ !truncates then throw "when not truncating set1, string2 must be non-empty".toList
  if complement ∧ (first.any isClass) ∧ !(images.all (some · = images.head?)) then
    throw ("when translating with complemented character classes,\n".toList
      ++ "string2 must map all characters in the domain to one".toList)
  let filled := images ++ List.replicate (domain.length - images.length) (images.getLast?.getD ' ')
  let pairs := if truncates then domain.zip images else domain.zip filled
  -- a later pair of the same character counts
  let table := pairs.foldl (fun (a : Array Char) (c, d) => a.setIfInBounds c.toNat d) allBytes.toArray
  return { image := fun c => table.getD c.toNat c }

/-- `tr`: replaces, deletes or joins characters. -/
def tr : Utility := withTable
    { flags := "cCdst", inOrder := true
      long := [("complement", 'c'), ("delete", 'd'), ("squeeze-repeats", 's'), ("truncate-set1", 't')] }
    fun name o => do
  let deletes := o.has 'd'
  let squeezes := o.has 's'
  let complement := o.has 'c' || o.has 'C'
  let wanted := if deletes = squeezes then 2 else 1
  let given := o.operands.length
  if given = 0 then return ← complainMissing name
  if given < wanted ∧ !(squeezes ∧ !deletes) then
    return ← complainUsage name ("missing operand after ".toList ++ Quote.shown (o.operands.headD [])
      ++ (if deletes then "\nTwo strings must be given when both deleting and squeezing repeats."
          else "\nTwo strings must be given when translating.").toList)
  if deletes ∧ !squeezes ∧ 1 < given then
    return ← complainUsage name ("extra operand ".toList ++ Quote.shown (o.operands.getD 1 [])
      ++ (if given = 2 then "\nOnly one string may be given when deleting without squeezing repeats."
          else "").toList)
  if 2 < given then return ← complainExtra name (o.operands.getD 2 [])
  let parts (t : Raw) : Except Raw (List SetPart) := setParts (t.length + 1) [] t
  let plan : Except Raw Translation := do
    let first ← parts (o.operands.headD [])
    let cs := setChars 0 first
    let among := allBytes.toArray.map fun c => cs.contains c != complement
    let isMember (c : Char) : Bool := among.getD c.toNat false
    match o.operands[1]? with
    | none =>
      if deletes then return { drops := isMember } else return { squeezes := isMember }
    | some t =>
      let second ← parts t
      if deletes then
        let ds := setChars 0 second
        return { drops := isMember, squeezes := ds.contains }
      let k ← translation complement (o.has 't') first second
      let images := setChars 256 second
      return if squeezes then { k with squeezes := images.contains } else k
  match plan with
  | .error message =>
    complain name message
    return 1
  | .ok k =>
    match ← translated k rounds none with
    | .ok () => return 0
    | .error e =>
      complain name ("read error: ".toList ++ e.text.toList)
      return 1

/-! ## Lines of a width -/

def columnAfter (column : Nat) (c : Char) : Nat :=
  match c with
  | '\x08' => column - 1
  | '\r' => 0
  | '\t' => column + 8 - column % 8
  | _ => column + 1

/-- Cuts a line so that no part is wider than a width; `kept` is the part that has been begun, backwards. -/
def folded (bytes spaces : Bool) (width : Nat) : (fuel : Nat) → (column : Nat) → (kept : Raw) → Raw → Raw
  | 0, _, kept, t => kept.reverse ++ t
  | _ + 1, _, kept, [] => kept.reverse
  | fuel + 1, column, kept, c :: rest =>
    let next := if bytes then column + 1 else columnAfter column c
    let columns (t : Raw) : Nat := if bytes then t.length else t.foldl columnAfter 0
    if next ≤ width ∨ kept = [] then folded bytes spaces width fuel next (c :: kept) rest
    else
      -- the part ends behind its last blank, if it has one and that is asked for
      let tail := kept.takeWhile fun c => c ≠ ' ' && c ≠ '\t'
      if spaces ∧ tail.length < kept.length then
        let left := tail.reverse
        (kept.drop tail.length).reverse ++ '\n' ::
          folded bytes spaces width fuel (columns left) tail (c :: rest)
      else kept.reverse ++ '\n' :: folded bytes spaces width fuel 0 [] (c :: rest)

def mapLines (name : Raw) (files : List Raw) (f : Raw → Raw) : Run Nat :=
  eachInputLine name files fun line complete => do
    putText (f line ++ if complete then ['\n'] else [])
    return true

/-- `fold`: breaks lines. -/
def fold : Utility := fun name arguments =>
  (withOptions "bs" "w" [("bytes", 'b'), ("spaces", 's'), ("width", 'w')] fun name o => do
    let width ← match o.value? 'w' with
      | some t => numberWithin name "invalid number of columns" 1 9223372036854775797 t
      | none => pure 80
    mapLines name o.operands fun line =>
      folded (o.has 'b') (o.has 's') width.toNat (2 * line.length + 2) 0 [] line) name
    (arguments.map fun a =>
      match a with
      | '-' :: c :: t => if c.isDigit then '-' :: 'w' :: c :: t else a
      | a => a)

def tabStop (stops : List Nat) (column : Nat) : Nat :=
  match stops with
  | [n] => column + n - column % n
  | stops => (stops.find? (column < ·)).getD (column + 1)

def tabStops? (t : Raw) : Option (List Nat) :=
  let parts := t.splitOnP fun c => c = ',' || c = ' '
  match parts.mapM Raw.nat? with
  | some stops => if stops.all (0 < ·) then some stops else none
  | none => none

/-- Old-style tab stops such as `-4` as an option. -/
def modernStops (arguments : List Raw) : List Raw :=
  arguments.flatMap fun a =>
    match a with
    | '-' :: c :: t => if c.isDigit then [['-', 't'], c :: t] else [a]
    | a => [a]

/-- `expand`: puts blanks in for tabs. -/
def expand : Utility := fun name arguments => (withOptions "i" "t" [("initial", 'i'), ("tabs", 't')]
    fun name o => do
  match tabStops? ((o.value? 't').getD "8".toList) with
  | none =>
    complain name ("tab size contains invalid character(s): ".toList
      ++ Quote.shown ((o.value? 't').getD []))
    return 1
  | some stops =>
    mapLines name o.operands fun line =>
      (line.foldl (fun (read, column, initial) c =>
        let initial := initial && (c = ' ' || c = '\t')
        if c = '\t' ∧ (initial ∨ !o.has 'i') then
          let next := tabStop stops column
          (List.replicate (next - column) ' ' ++ read, next, initial)
        else (c :: read, if c = '\t' then tabStop stops column else
          if c = '\x08' then column - 1 else column + 1, initial))
        (([] : Raw), 0, true)).1.reverse) name (modernStops arguments)

/-- Puts tabs in for blanks that reach to a tab stop; `pending` counts the blanks before the column. -/
def unexpanded (all : Bool) (stops : List Nat) : (column pending : Nat) → (initial : Bool) → Raw → Raw
  | _, pending, _, [] => List.replicate pending ' '
  | column, pending, initial, c :: rest =>
    if (c = ' ' ∨ c = '\t') ∧ (initial ∨ all) then
      let stop := tabStop stops column
      let next := if c = '\t' then stop else column + 1
      if next = stop then
        -- a single blank before a stop stays unless more blanks follow
        if c = ' ' ∧ pending = 0 ∧ rest.head? ≠ some ' ' ∧ rest.head? ≠ some '\t' then
          ' ' :: unexpanded all stops next 0 initial rest
        else '\t' :: unexpanded all stops next 0 initial rest
      else unexpanded all stops next (pending + 1) initial rest
    else List.replicate pending ' ' ++ c :: unexpanded all stops (column + 1) 0 false rest

/-- `unexpand`: puts tabs in for blanks. -/
def unexpand : Utility := withOptions "a" "t" [("all", 'a'), ("tabs", 't'), ("first-only", 'f')]
    fun name o => do
  match tabStops? ((o.value? 't').getD "8".toList) with
  | none =>
    complain name ("tab size contains invalid character(s): ".toList
      ++ Quote.shown ((o.value? 't').getD []))
    return 1
  | some stops => mapLines name o.operands (unexpanded (o.has 'a' || o.has 't') stops 0 0 true)

end LuaTree.Shell.Utility

import LuaTree.Shell.Format

/-!
# Rules for records

A program of `awk` is a list of rules, each of which says what is to be done with the records that fit a pattern.
This module holds the values that such a program works with, and its expressions and statements.

A text that comes from the input counts as a number where it looks like one.
-/

namespace LuaTree.Shell.Awk

open Decimal

/-! ## Values -/

/-- A value. -/
inductive Value where
  | unset
  | number (x : Float)
  | text (t : Raw)
  | input (t : Raw)
  deriving Inhabited

/-- The machine number nearest to a number. -/
def floatOf : Binary → Float
  | .finite negative m e =>
    let x := (Float.ofNat m).scaleB e
    if negative then -x else x
  | .infinite negative => if negative then -1.0 / 0.0 else 1.0 / 0.0
  | .nan _ => 0.0 / 0.0

def leadingNumber (t : Raw) : Float := ((read? .double t).map fun p => floatOf p.1).getD 0

def isBlank (c : Char) : Bool := c = ' ' || ('\t' ≤ c && c ≤ '\r')

def looksNumeric (t : Raw) : Bool :=
  let t := ((t.dropWhile isBlank).reverse.dropWhile isBlank).reverse
  t.head?.any (fun c => c.isDigit || "+-.".toList.contains c)
    && t.getLast?.any (fun c => c.isDigit || c = '.')
    && (read? .double t).any fun p => p.2.isEmpty

/-- A number without what stands behind its point. -/
def truncated (x : Float) : Float := if x < 0 then x.ceil else x.floor

/-- The whole number next to zero that a number leads to, as far as machine words go. -/
def wholeOf (x : Float) : Int :=
  if x < 0 then -((-x).toUInt64.toNat : Int) else x.toUInt64.toNat

/-- The remainder of a division that goes towards zero. -/
def remainder (x y : Float) : Float :=
  match Binary.ofFloat x, Binary.ofFloat y with
  | .finite negative m e, .finite _ n d =>
    if n = 0 then 0.0 / 0.0
    else
      let low := min e d
      let r := m * two (e - low).toNat % (n * two (d - low).toNat)
      floatOf (if 0 ≤ low then .ofQuotient .double negative (r * two low.toNat) 1
        else .ofQuotient .double negative r (two (-low).toNat))
  | .finite _ _ _, .infinite _ => x
  | _, _ => 0.0 / 0.0

/-! ## Texts of numbers -/

/-- A conversion of a number with a point, by its letter. -/
def style? : Char → Option (Decimal.Style × Bool)
  | 'e' => some (.scientific, false)
  | 'E' => some (.scientific, true)
  | 'f' => some (.fixed, false)
  | 'F' => some (.fixed, true)
  | 'g' => some (.general, false)
  | 'G' => some (.general, true)
  | _ => none

/-- A number as conversions take it. -/
def exactOf (x : Float) : Binary := if x.isNaN then .nan true else Binary.ofFloat x

/-- A number converted to a whole one within the bounds of conversions. -/
def wholeWithin (x : Float) : Int := max (wholeOf x) (-0x7FFFFFFFFFFFFFFF)

/-- Reads the flags of a conversion, and a width and a precision that are numbers or stars. -/
def specOf (t : Raw) : Raw × (Option Nat × Bool) × (Option Nat × Bool) × Raw :=
  let flags := t.takeWhile "#-+ 0".toList.contains
  let measure (t : Raw) : (Option Nat × Bool) × Raw := match t with
    | '*' :: rest => ((none, true), rest)
    | t =>
      let digits := t.takeWhile Char.isDigit
      ((Raw.nat? digits, false), t.drop digits.length)
  let (width, rest) := measure (t.drop flags.length)
  match rest with
  | '.' :: rest =>
    let ((n?, isStar), rest) := measure rest
    (flags, width, (if isStar then none else some (n?.getD 0), isStar), rest.dropWhile "lhqjzt".toList.contains)
  | rest => (flags, width, (none, false), rest.dropWhile "lhqjzt".toList.contains)

def shownBy (format : Raw) (x : Float) : Raw :=
  let before := format.takeWhile (· ≠ '%')
  match format.drop before.length with
  | '%' :: rest =>
    let (flags, (width?, _), (precision?, _), rest) := specOf rest
    let spec : Format.Spec := { flags, width := width?.getD 0, precision? }
    match rest with
    | c :: rest =>
      before ++ (match style? c with
        | some (style, capital) => spec.ofBinary style capital (exactOf x)
        | none => spec.ofInt (wholeWithin x)) ++ rest
    | [] => before
  | _ => before

/-- A number as a text: whole ones with all their digits, others as a format tells. -/
def textOfNumber (format : Raw) (x : Float) : Raw :=
  if x = truncated x ∧ x ≤ 18446744073709551616.0 ∧ -9223372036854775808.0 ≤ x then
    if x < 0 then '-' :: Raw.ofNat (-x).toUInt64.toNat else Raw.ofNat x.toUInt64.toNat
  else shownBy format x

namespace Value

def toNumber : Value → Float
  | .unset => 0
  | .number x => x
  | .text t | .input t => leadingNumber t

def toText (format : Raw) : Value → Raw
  | .unset => []
  | .number x => textOfNumber format x
  | .text t | .input t => t

def isNumeric : Value → Bool
  | .unset | .number _ => true
  | .text _ => false
  | .input t => looksNumeric t

def isTrue : Value → Bool
  | .unset => false
  | .number x => x != 0
  | .text t => !t.isEmpty
  | .input t => if looksNumeric t then leadingNumber t != 0 else !t.isEmpty

def ofBool (b : Bool) : Value := .number (if b then 1 else 0)

def ofNat (n : Nat) : Value := .number (Float.ofNat n)

end Value

/-! ## Formats -/

/-- Goes through a format; answers with what it writes, or with what is wrong and what has been written by
then. `convention` tells how numbers become texts. -/
def formatted (convention : Raw) (whole : Raw) :
    (fuel : Nat) → (count : Nat) → Raw → List Value → Raw × Option Raw
  | 0, _, _, _ | _, _, [], _ => ([], none)
  | fuel + 1, count, '%' :: '%' :: rest, values =>
    let (t, fault) := formatted convention whole fuel count rest values
    ('%' :: t, fault)
  | fuel + 1, count, '%' :: rest, values =>
    let (flags, (width?, starWidth), (precision?, starPrecision), rest) := specOf rest
    let lacking : Option Raw := some ("not enough arguments passed to printf(\"".toList ++ whole ++ "\")".toList)
    let take (wanted : Bool) (values : List Value) : Option (Option Int) × List Value :=
      if !wanted then (some none, values)
      else match values with
        | v :: rest => (some (some (wholeOf v.toNumber)), rest)
        | [] => (none, [])
    let (given, values) := take starWidth values
    let (also, values) := take starPrecision values
    match given, also with
    | some w?, some p? =>
      let w : Int := w?.getD (width?.getD 0 : Nat)
      let flags := if w < 0 then '-' :: flags else flags
      let precision? : Option Nat := match p? with
        | some p => if p < 0 then none else some p.toNat
        | none => precision?
      let spec : Format.Spec := { flags, width := w.natAbs, precision? }
      match rest with
      | [] => ([], some ("improper conversion(number ".toList ++ Raw.ofNat (count + 1) ++ ") in printf(\"".toList
          ++ whole ++ "\")".toList))
      | c :: rest =>
        let isKnown := (style? c).isSome || "dicsuoxX".toList.contains c
        if !isKnown then
          match values, c with
          | [], '%' => ([], lacking)
          | _, _ =>
            ([], some ("improper conversion(number ".toList ++ Raw.ofNat (count + 1) ++ ") in printf(\"".toList
              ++ whole ++ "\")".toList))
        else match values with
        | [] => ([], lacking)
        | v :: values =>
          let n := wholeWithin v.toNumber
          let shown : Raw := match style? c, c with
            | some (style, capital), _ => spec.ofBinary style capital (exactOf v.toNumber)
            | none, 'c' =>
              let letter : Char := match v with
                | .number x => Format.byte (wholeOf x % 256).toNat
                | .input t => if looksNumeric t then Format.byte (wholeOf (leadingNumber t) % 256).toNat
                    else t.headD '\x00'
                | .text t => t.headD '\x00'
                | .unset => '\x00'
              spec.pad [letter]
            | none, 's' => spec.ofText (v.toText convention)
            | none, 'd' | none, 'i' => spec.ofInt n
            | none, 'u' => spec.ofBase 10 false n
            | none, 'o' => spec.ofBase 8 false n
            | none, 'x' => spec.ofBase 16 false n
            | none, _ => spec.ofBase 16 true n
          let (t, fault) := formatted convention whole fuel (count + 1) rest values
          (shown ++ t, fault)
    | _, _ => ([], lacking)
  | fuel + 1, count, c :: rest, values =>
    let plain := (c :: rest).takeWhile (· ≠ '%')
    let (t, fault) := formatted convention whole fuel count ((c :: rest).drop plain.length) values
    (plain ++ t, fault)

/-! ## Programs -/

/-- How two numbers are put together. -/
inductive Operator where
  | plus
  | minus
  | times
  | divided
  | modulo
  | power -- the first one to the power of the second one
  deriving DecidableEq, Inhabited

def Operator.apply : Operator → Float → Float → Float
  | .plus, x, y => x + y
  | .minus, x, y => x - y
  | .times, x, y => x * y
  | .divided, x, y => x / y
  | .modulo, x, y => remainder x y
  | .power, x, y => x ^ y

/-- How two values are compared. -/
inductive Comparison where
  | less -- the first one comes before the second one
  | atMost -- it does not come behind it
  | equal
  | unequal -- they are not the same
  | greater -- the first one comes behind the second one
  | atLeast -- it does not come before it
  deriving DecidableEq, Inhabited

/-- Whether a comparison holds of two things, given which of them comes first and whether they are the same. -/
def Comparison.holds (less equal : Bool) : Comparison → Bool
  | .less => less
  | .atMost => less || equal
  | .equal => equal
  | .unequal => !equal
  | .greater => !less && !equal
  | .atLeast => !less

/-- An expression. -/
inductive Expr where
  | constant (v : Value) -- a number or a text
  | regular (t : Raw) -- whether the record matches a regular expression
  | named (x : Raw)
  | element (x : Raw) (keys : List Expr)
  | field (number : Expr)
  | grouped (a : Expr) -- an expression between parentheses, to which nothing can be assigned
  | assign (op? : Option Operator) (target value : Expr)
  | choose (condition yes no : Expr)
  | both (a b : Expr)
  | either (a b : Expr)
  | no (a : Expr) -- whether something does not hold
  | holds (x : Raw) (keys : List Expr)
  -- whether a text matches a regular expression, or does not
  | fits (wanted : Bool) (text pattern : Expr)
  | compare (c : Comparison) (a b : Expr)
  | joined (a b : Expr) -- two texts, one behind the other
  | compute (op : Operator) (a b : Expr)
  | negative (a : Expr)
  | numeric (a : Expr) -- the number that a value stands for
  -- a value that is made one larger or smaller; the one before or the one afterwards counts
  | stepped (up before : Bool) (target : Expr)
  | call (f : Raw) (arguments : List Expr)
  | known (f : Raw) (arguments : List Expr) -- a call of a function that every program has
  | readNext (target? : Option Expr)
  | readFile (file : Expr) (target? : Option Expr)
  | readCommand (command : Expr) (target? : Option Expr) -- the next record of what a command writes
  deriving Inhabited

/-- Where output goes. -/
inductive Outlet where
  | file
  | fileEnd
  | command
  deriving DecidableEq, Inhabited

/-- A statement. -/
inductive Statement where
  | work (e : Expr)
  | print (values : List Expr) (target? : Option (Outlet × Expr))
  -- values are written as a format tells
  | printf (values : List Expr) (target? : Option (Outlet × Expr))
  | choose (condition : Expr) (yes : Statement) (no : Option Statement)
  -- a loop: what comes first, what is asked before each round, what comes behind each round
  | loop (first? : Option Statement) (condition? : Option Expr) (behind? : Option Statement) (body : Statement)
  | loopFirst (body : Statement) (condition : Expr) -- a loop that asks behind each round
  | each (x table : Raw) (body : Statement) -- a loop over the keys of a table
  | block (statements : List Statement)
  | next
  | nextFile
  | exit (status? : Option Expr)
  | leave (value? : Option Expr)
  | stop
  | again -- on to the next round of a loop
  | delete (table : Raw) (keys : List Expr)
  | deleteAll (table : Raw)
  deriving Inhabited

/-- When a rule is followed. -/
inductive Pattern where
  | first
  | last
  | always
  | whenever (e : Expr) -- with the records for which something holds
  -- with the records from one for which something holds up to one for which something else holds
  | between (number : Nat) (a b : Expr)
  deriving Inhabited

/-- A function of a program. -/
structure Function where
  parameters : List Raw
  body : Statement
  deriving Inhabited

/-- A program. -/
structure Program where
  rules : List (Pattern × Statement) := []
  functions : List (Raw × Function) := []
  deriving Inhabited

end LuaTree.Shell.Awk

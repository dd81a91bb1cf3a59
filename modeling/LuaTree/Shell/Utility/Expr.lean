import LuaTree.Shell.Regular.Reader
import LuaTree.Shell.Utility.Basic

/-!
# Expressions as arguments

`expr` works out an expression each of whose words is an argument. All values are texts; some of them stand
for whole numbers, of any size. What a choice does not need is read and not worked out, so it can do no harm.
-/

namespace LuaTree.Shell.Utility

open Run

namespace Expr

/-- What is wrong with an expression. -/
inductive Fault where
  | missing (last : Raw) -- the arguments end too early, behind the given one
  | unexpected (argument : Raw)
  | closed -- a parenthesis is closed that has not been opened
  | openEnd (last : Raw) -- a parenthesis is not closed: behind the given argument nothing follows
  -- a parenthesis is not closed: the given argument stands in its place
  | openBefore (argument : Raw)
  | notNumber
  | divisionByZero
  | regular (f : Regular.Fault)

def Fault.text : Fault → Raw
  | .missing t => "syntax error: missing argument after ".toList ++ Quote.shown t
  | .unexpected t => "syntax error: unexpected argument ".toList ++ Quote.shown t
  | .closed => "syntax error: unexpected ')'".toList
  | .openEnd t => "syntax error: expecting ')' after ".toList ++ Quote.shown t
  | .openBefore t => "syntax error: expecting ')' instead of ".toList ++ Quote.shown t
  | .notNumber => "non-integer argument".toList
  | .divisionByZero => "division by zero".toList
  | .regular f => f.text.toList

/-- The arguments that are left, and the one before them. -/
structure State where
  rest : List Raw
  last : Raw := [] -- the argument that was taken last

/-- Takes arguments and answers with a value. -/
abbrev Reader := StateT State (Except Fault)

/-- The number that a value stands for. -/
def int? : Raw → Option Int
  | '-' :: t => (Raw.nat? t).map fun n => -(n : Int)
  | t => (Raw.nat? t).map Int.ofNat

/-- Whether a value counts as false. -/
def isNull (t : Raw) : Bool :=
  t = [] || (let digits := if t.head? = some '-' then t.drop 1 else t
    digits ≠ [] && digits.all (· = '0'))

def truth (b : Bool) : Raw := if b then ['1'] else ['0']

def take : Reader Raw := do
  let s ← get
  match s.rest with
  | [] => throw (.missing s.last)
  | a :: rest =>
    set ({ rest, last := a } : State)
    return a

/-- Takes the next argument if it is one of some operators. -/
def operator? (among : List String) : Reader (Option String) := do
  match (← get).rest with
  | a :: _ =>
    match among.find? fun o => o.toList = a with
    | some o =>
      discard take
      return some o
    | none => return none
  | [] => return none

/-- What a pattern finds at the beginning of a text: its part, or how long it is. -/
def found (text pattern : Raw) : Except Fault Raw :=
  match Regular.read { isExtended := false, isLenient := true } pattern with
  | .error f => .error (.regular f)
  | .ok (r, parts) =>
    let s : Regular.Subject := { chars := text.toArray }
    .ok (match r.matchAt? s 0 with
      | some m => if 0 < parts then m.part s 1 else Raw.ofNat (m.finish - m.start)
      | none => if 0 < parts then [] else ['0'])

/-- Which of two values comes first: as numbers if both are, otherwise as texts. -/
def compared (a b : Raw) : Ordering :=
  match int? a, int? b with
  | some m, some n => compare m n
  | _, _ => if a = b then .eq else if a < b then .lt else .gt

def comparison (o : String) (a b : Raw) : Raw :=
  let c := compared a b
  truth (match o with
    | "<" => c = .lt
    | "<=" => c ≠ .gt
    | "=" | "==" => c = .eq
    | "!=" => c ≠ .eq
    | ">=" => c ≠ .lt
    | _ => c = .gt)

/-- The value of an operation on numbers. -/
def calculation (o : String) (a b : Raw) : Except Fault Raw :=
  match int? a, int? b with
  | some m, some n =>
    match o with
    | "+" => .ok (Raw.ofInt (m + n))
    | "-" => .ok (Raw.ofInt (m - n))
    | "*" => .ok (Raw.ofInt (m * n))
    | _ =>
      if n = 0 then .error .divisionByZero
      else .ok (Raw.ofInt (if o = "/" then m.tdiv n else m.tmod n))
  | _, _ => .error .notNumber

/-- How tightly operators bind, the loosest first. -/
def levels : List (List String) :=
  [["|"], ["&"], ["<", "<=", "=", "==", "!=", ">=", ">"], ["+", "-"], ["*", "/", "%"], [":"]]

/-- The value of two values with an operator between them. -/
def joined (o : String) (needed : Bool) (a b : Raw) : Except Fault Raw :=
  match o with
  | "|" => .ok (if !isNull a then a else if isNull b then ['0'] else b)
  | "&" => .ok (if isNull a ∨ isNull b then ['0'] else a)
  | ":" => if needed then found a b else .ok []
  | "+" | "-" | "*" | "/" | "%" => if needed then calculation o a b else .ok ['0']
  | _ => .ok (comparison o a b)

mutual

/-- Takes an expression with the operators of some levels; `needed` tells whether its value is. -/
def expression : (fuel : Nat) → List (List String) → (needed : Bool) → Reader Raw
  | 0, _, _ => throw (.missing [])
  | fuel + 1, [], needed => operand fuel needed
  | fuel + 1, level :: tighter, needed => do
    let a ← expression fuel tighter needed
    further fuel level tighter needed a

/-- Goes on behind a value as long as operators of a level follow. -/
def further : (fuel : Nat) → List String → List (List String) → (needed : Bool) → Raw → Reader Raw
  | 0, _, _, _, a => return a
  | fuel + 1, level, tighter, needed, a => do
    match ← operator? level with
    | none => return a
    | some o =>
      let needs := match o with
        | "|" => needed && isNull a
        | "&" => needed && !isNull a
        | _ => needed
      let b ← expression fuel tighter needs
      let v ← monadLift (joined o needed a b)
      further fuel level tighter needed v

def operand : (fuel : Nat) → (needed : Bool) → Reader Raw
  | 0, _ => throw (.missing [])
  | fuel + 1, needed => do
    match ← operator? ["+", "length", "match", "index", "substr", "("] with
    | some "+" => take
    | some "length" => return Raw.ofNat (← operand fuel needed).length
    | some "match" =>
      let a ← operand fuel needed
      let b ← operand fuel needed
      if needed then monadLift (found a b) else return []
    | some "index" =>
      let a ← operand fuel needed
      let b ← operand fuel needed
      let n := (a.takeWhile fun c => !b.contains c).length
      return if n = a.length then ['0'] else Raw.ofNat (n + 1)
    | some "substr" =>
      let a ← operand fuel needed
      let place ← operand fuel needed
      let length ← operand fuel needed
      match int? place, int? length with
      | some p, some n =>
        return if p ≤ 0 ∨ n ≤ 0 then [] else (a.drop (p.toNat - 1)).take n.toNat
      | _, _ => return []
    | some _ =>
      let a ← expression fuel levels needed
      let s ← get
      match s.rest with
      | [] => throw (.openEnd s.last)
      | b :: _ =>
        if b ≠ [')'] then throw (.openBefore b)
        discard take
        return a
    | none =>
      if (← get).rest.head? = some [')'] then throw .closed
      take

end

def value (arguments : List Raw) : Except Fault Raw :=
  match (expression (8 * arguments.length + 16) levels true).run { rest := arguments } with
  | .error f => .error f
  | .ok (a, s) =>
    match s.rest with
    | [] => .ok a
    | b :: _ => .error (.unexpected b)

end Expr

/-- `expr`: works out an expression. -/
def expr : Utility := fun name arguments => do
  let arguments := if arguments.head? = some ['-', '-'] then arguments.drop 1 else arguments
  if arguments = [] then complainMissing name "operand" 2
  else
    match Expr.value arguments with
    | .error fault =>
      complain name fault.text
      return 2
    | .ok a =>
      putLine a 3
      return if Expr.isNull a then 1 else 0

end LuaTree.Shell.Utility

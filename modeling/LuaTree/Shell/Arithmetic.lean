import LuaTree.Shell.Complaint

/-!
# Sums

Expressions over whole numbers as scripts write them between double parentheses. They are worked out as
they are read, from left to right, so of two mistakes the first one counts; a part that is not wanted, such
as the second operand of `0 && x`, is read and has no effect.

Numbers are machine words of 64 bits.
-/

namespace LuaTree.Shell.Arithmetic

/-- A token of an expression. -/
inductive Shape where
  | number (n : Int)
  | name (t : Raw) (place? : Option Raw) -- the name of a variable, or of a place of a list
  | op (text : String) -- an operator or a parenthesis
  | badNumber (t : Raw)
  | bad
  deriving DecidableEq, Inhabited

/-- A token with the text from it to the end. -/
structure Lexeme where
  shape : Shape
  text : Raw
  deriving Inhabited

/-- The operators, longer ones first. -/
def symbols : List String :=
  ["<<=", ">>=", "<<", ">>", "<=", ">=", "==", "!=", "&&", "||", "+=", "-=", "*=", "/=", "%=", "&=", "|=",
   "^=", "+", "-", "*", "/", "%", "<", ">", "&", "|", "^", "!", "~", "?", ":", "=", "(", ")"]

def extendedSymbols : List String := ["**", "++", "--", ","]

/-- How tightly the operators between operands bind. -/
def strength? : String → Option Nat
  | "**" => some 11
  | "*" | "/" | "%" => some 10
  | "+" | "-" => some 9
  | "<<" | ">>" => some 8
  | "<" | ">" | "<=" | ">=" => some 7
  | "==" | "!=" => some 6
  | "&" => some 5
  | "^" => some 4
  | "|" => some 3
  | "&&" => some 2
  | "||" => some 1
  | _ => none

/-- The operators that change a variable, with what they do. -/
def change? (text : String) : Option String :=
  if text ∈ ["+=", "-=", "*=", "/=", "%=", "&=", "|=", "^=", "<<=", ">>="] then
    some (text.dropEnd 1).copy
  else none

/-! ## Numbers -/

def wordCount : Nat := 0x10000000000000000

def largest : Int := 0x7FFFFFFFFFFFFFFF

/-- Brings a number into the range of machine words. -/
def wrap (n : Int) : Int := Int.bmod n wordCount

/-- The value of a digit in some base; large letters count like small ones up to base 36. -/
def digitValue (base : Nat) (c : Char) : Nat :=
  if c.isDigit then c.toNat - 48
  else if c.isLower then c.toNat - 87
  else if c.isUpper then if base ≤ 36 then c.toNat - 55 else c.toNat - 29
  else if c = '@' then 62
  else if c = '_' then 63
  else 64

def digits (base : Nat) (t : Raw) : Int := t.foldl (fun (n : Int) c => n * base + digitValue base c) 0

/-- Splits off the digits of a base that a text begins with. -/
def leading (base : Nat) (t : Raw) : Raw := t.takeWhile fun c => digitValue base c < base

/-- The number that a text begins with, in base ten, eight or sixteen, and what follows it. Digits that do
not fit in are not part of it. -/
def number (t : Raw) : Int × Raw :=
  match t with
  | '0' :: x :: rest =>
    if (x = 'x' ∨ x = 'X') ∧ leading 16 rest ≠ [] then
      let ds := leading 16 rest
      (digits 16 ds, rest.drop ds.length)
    else
      let ds := leading 8 t
      (digits 8 ds, t.drop ds.length)
  | _ =>
    let ds := leading 10 t
    (digits 10 ds, t.drop ds.length)

/-- The number that digits of the extended dialect stand for, where a base may be given. -/
def basedNumber? (t : Raw) : Option Int :=
  match t.splitOn '#' with
  | [base, ds] =>
    match Raw.nat? base with
    | some b =>
      if 2 ≤ b ∧ b ≤ 64 ∧ ds ≠ [] ∧ ds.all fun c => digitValue b c < b then some (digits b ds) else none
    | none => none
  | [_] =>
    match number t with
    | (n, []) => some n
    | _ => none
  | _ => none

/-! ## Tokens -/

/-- Takes an expression apart. -/
def lexemes (extended : Bool) : (fuel : Nat) → Array Lexeme → Raw → List Lexeme
  | 0, read, _ | _, read, [] => read.toList
  | fuel + 1, read, c :: rest =>
    let t := c :: rest
    if c = ' ' ∨ c = '\t' ∨ c = '\n' then lexemes extended fuel read rest
    else if c.isDigit then
      if extended then
        let word := t.takeWhile fun c => c.isAlphanum || c = '#' || c = '@' || c = '_'
        let shape : Shape :=
          match basedNumber? word with
          | some n => .number (wrap n)
          | none => .badNumber word
        lexemes extended fuel (read.push ⟨shape, t⟩) (t.drop word.length)
      else
        let (n, after) := number t
        lexemes extended fuel (read.push ⟨.number (min n largest), t⟩) after
    else if Raw.startsName c then
      let name := t.takeWhile Raw.inName
      match if extended then t.drop name.length else [] with
      | '[' :: inner =>
        let place := inner.takeWhile (· ≠ ']')
        lexemes extended fuel (read.push ⟨.name name (some place), t⟩) (inner.drop (place.length + 1))
      | _ => lexemes extended fuel (read.push ⟨.name name none, t⟩) (t.drop name.length)
    else
      let known := if extended then extendedSymbols ++ symbols else symbols
      match known.find? fun text => text.toList.isPrefixOf t with
      | some text => lexemes extended fuel (read.push ⟨.op text, t⟩) (t.drop text.length)
      | none => (read.push ⟨.bad, t⟩).toList

/-! ## Working out -/

/-- Reads and works out an expression, of which the tokens are taken away. -/
abbrev Sum := StateT (List Lexeme) Run

def truth (b : Bool) : Int := if b then 1 else 0

def bitwise (f : Nat → Nat → Nat) (a b : Int) : Int :=
  wrap (f (a % wordCount).toNat (b % wordCount).toNat)

/-- The value of an operation; nothing when a number is divided by zero. -/
def apply (op : String) (a b : Int) : Option Int :=
  match op with
  | "*" => some (wrap (a * b))
  | "/" => if b = 0 then none else if b = -1 ∧ a = -largest - 1 then some a else some (a.tdiv b)
  | "%" => if b = 0 then none else some (a.tmod b)
  | "+" => some (wrap (a + b))
  | "-" => some (wrap (a - b))
  | "<<" => some (wrap (a * Int.ofNat (1 <<< (b % 64).toNat)))
  | ">>" => some (a / Int.ofNat (1 <<< (b % 64).toNat))
  | "<" => some (truth (a < b))
  | ">" => some (truth (b < a))
  | "<=" => some (truth (a ≤ b))
  | ">=" => some (truth (b ≤ a))
  | "==" => some (truth (a = b))
  | "!=" => some (truth (a ≠ b))
  | "&" => some (bitwise Nat.land a b)
  | "|" => some (bitwise Nat.lor a b)
  | "^" => some (bitwise Nat.xor a b)
  | _ => some (wrap ((List.range b.toNat).foldl (fun n _ => wrap (n * a)) 1))

/-- What a sum is worked out with. -/
structure Setting where
  source : Raw
  extended : Bool
  -- how the value of a variable is worked out where it is an expression itself
  inner : Raw → Run Int

/-- Says what is wrong at a token. -/
def fault {α : Type} (k : Setting) (plain extended : String) (here : List Lexeme) : Sum α := do
  let token := (here.head?.map Lexeme.text).getD []
  if k.extended then
    let trimmed := k.source.dropWhile (· = ' ')
    Run.giveUp (trimmed ++ ": ".toList ++ extended.toList ++ " (error token is \"".toList ++ token
      ++ "\")".toList)
  else
    Run.giveUp ("arithmetic expression: ".toList ++ plain.toList ++ ": \"".toList ++ k.source ++ ['"'])

/-- Complains that an operand is missing; what stands last is the culprit when nothing follows. -/
def noOperand {α : Type} (k : Setting) : Sum α := do
  let ts ← get
  match ts with
  | ⟨.badNumber t, _⟩ :: _ =>
    Run.giveUp (k.source ++ ": value too great for base (error token is \"".toList ++ t ++ "\")".toList)
  | [] =>
    let culprit := ((lexemes k.extended (k.source.length + 1) #[] k.source).getLast?).toList
    fault k "expecting primary" "syntax error: operand expected" culprit
  | _ => fault k "expecting primary" "syntax error: operand expected" ts

def value (k : Setting) (name : Raw) (place? : Option Raw) : Run Int := do
  let e ← Run.environment
  let v? ← match place? with
    | none => Run.varValue? name
    | some place => do
      let v? ← Run.binding? name
      let key ← if v?.any Variable.byName then pure place else Raw.ofInt <$> k.inner place
      pure (v?.bind fun v => (v.list?.getD [(['0'], v.value)]).lookup key)
  match v? with
  | none =>
    if e.options.contains 'u' then
      if k.extended then Run.fatal (name ++ ": unbound variable".toList)
      else Run.fatal (name ++ ": parameter not set".toList)
    return 0
  | some t =>
    if k.extended then
      if t.all Char.isWhitespace then return 0
      return ← k.inner t
    let isSpace (c : Char) : Bool := c = ' ' || ('\t' ≤ c && c ≤ '\r')
    let body := t.dropWhile isSpace
    let (sign, ds) : Int × Raw :=
      match body with
      | '-' :: ds => (-1, ds)
      | '+' :: ds => (1, ds)
      | ds => (1, ds)
    let (n, rest) := number ds
    let fits := -largest - 1 ≤ sign * n ∧ sign * n ≤ largest
    if body = [] then return 0
    if (rest.dropWhile isSpace) ≠ [] ∨ !(ds.head?.any Char.isDigit) ∨ !fits then
      Run.fatal ("Illegal number: ".toList ++ t)
    return sign * n

/-- Sets a variable to a number. -/
def store (k : Setting) (name : Raw) (place? : Option Raw) (n : Int) : Run Unit := do
  match place? with
  | none => Run.setVariable name (Raw.ofInt n)
  | some place => do
    let v? ← Run.binding? name
    let key ← if v?.any Variable.byName then pure place else Raw.ofInt <$> k.inner place
    Run.setPlace name key (Raw.ofInt n)

/-- Applies an operation, or complains; `here` is where its second operand stands. -/
def applied (k : Setting) (idle : Bool) (op : String) (a b : Int) (here : List Lexeme) : Sum Int := do
  if idle then return b
  if op = "**" ∧ b < 0 then fault k "" "exponent less than 0" here
  match apply op a b with
  | some n => return n
  | none => fault k "division by zero" "division by 0" here

mutual

/-- Reads an assignment or a choice, or in the extended dialect several of them. -/
def whole (k : Setting) (idle : Bool) : (fuel : Nat) → Sum Int
  | 0 => noOperand k
  | fuel + 1 => do
    match ← get with
    | ⟨.name x place?, _⟩ :: ⟨.op text, _⟩ :: rest =>
      if text = "=" ∨ (change? text).isSome then
        set rest
        let n ← whole k idle fuel
        if idle then return n
        match change? text with
        | none =>
          store k x place? n
          return n
        | some op =>
          let n ← applied k idle op (← value k x place?) n rest
          store k x place? n
          return n
      else choice k idle fuel
    | _ => choice k idle fuel

/-- Reads a choice between two values. -/
def choice (k : Setting) (idle : Bool) : (fuel : Nat) → Sum Int
  | 0 => noOperand k
  | fuel + 1 => do
    let c ← operations k idle fuel 1 (← operand k idle fuel)
    match ← get with
    | ⟨.op "?", _⟩ :: rest =>
      set rest
      let yes ← whole k (idle || c = 0) fuel
      match ← get with
      | ⟨.op ":", _⟩ :: rest =>
        set rest
        let no ← choice k (idle || c ≠ 0) fuel
        return if c ≠ 0 then yes else no
      | _ =>
        let last := ((lexemes k.extended (k.source.length + 1) #[] k.source).getLast?).toList
        fault k "expecting ':'" "\x60:' expected for conditional expression" last
    | _ => return c

/-- Reads operations whose operators bind at least as tightly as `bound`. -/
def operations (k : Setting) (idle : Bool) : (fuel : Nat) → (bound : Nat) → Int → Sum Int
  | 0, _, _ => noOperand k
  | fuel + 1, bound, a => do
    match ← get with
    | ⟨.op text, _⟩ :: rest =>
      match strength? text with
      | none => return a
      | some s =>
        if s < bound then return a
        set rest
        let skips := (text = "&&" && a = 0) || (text = "||" && a ≠ 0)
        let b ← operand k (idle || skips) fuel
        let b ← operations k (idle || skips) fuel (if text = "**" then s else s + 1) b
        let n ←
          if text = "&&" then pure (truth (a ≠ 0 ∧ b ≠ 0))
          else if text = "||" then pure (truth (a ≠ 0 ∨ b ≠ 0))
          else applied k idle text a b rest
        operations k idle fuel bound n
    | _ => return a

def operand (k : Setting) (idle : Bool) : (fuel : Nat) → Sum Int
  | 0 => noOperand k
  | fuel + 1 => do
    match ← get with
    | ⟨.number n, _⟩ :: rest =>
      set rest
      return n
    | ⟨.name x place?, _⟩ :: rest =>
      set rest
      match rest with
      | ⟨.op text, _⟩ :: rest =>
        if text = "++" ∨ text = "--" then
          set rest
          if idle then return 0
          let n ← value k x place?
          store k x place? (wrap (if text = "++" then n + 1 else n - 1))
          return n
      | _ => pure ()
      if idle then return 0
      value k x place?
    | ⟨.op text, _⟩ :: rest =>
      match text with
      | "(" =>
        set rest
        let n ← sequence k idle fuel
        match ← get with
        | ⟨.op ")", _⟩ :: rest =>
          set rest
          return n
        | ts => fault k "expecting ')'" "missing \x60)'" ts
      | "+" =>
        set rest
        operand k idle fuel
      | "-" =>
        set rest
        return wrap (-(← operand k idle fuel))
      | "!" =>
        set rest
        return truth ((← operand k idle fuel) = 0)
      | "~" =>
        set rest
        return -(← operand k idle fuel) - 1
      | "++" | "--" =>
        match rest with
        | ⟨.name x place?, _⟩ :: rest =>
          set rest
          if idle then return 0
          let n ← value k x place?
          let n := wrap (if text = "++" then n + 1 else n - 1)
          store k x place? n
          return n
        | _ =>
          set rest
          let n ← operand k idle fuel
          return n
      | _ => noOperand k
    | _ => noOperand k

/-- Reads expressions that are separated by commas, of which the last one counts. -/
def sequence (k : Setting) (idle : Bool) : (fuel : Nat) → Sum Int
  | 0 => noOperand k
  | fuel + 1 => do
    let n ← whole k idle fuel
    match ← get with
    | ⟨.op ",", _⟩ :: rest =>
      set rest
      sequence k idle fuel
    | _ => return n

end

/-- The value of an expression that is given as text; variables may stand for expressions down to some
depth. -/
def evaluateWithin : (depth : Nat) → Raw → Run Int
  | 0, t => Run.giveUp (t ++ ": expression recursion level exceeded (error token is \"".toList ++ t
      ++ "\")".toList)
  | depth + 1, t => do
    let extended ← Run.isExtended
    let k : Setting := { source := t, extended, inner := evaluateWithin depth }
    let ts := lexemes extended (t.length + 1) #[] t
    if extended ∧ ts.isEmpty then return 0
    let (n, rest) ← (sequence k false (8 * ts.length + 16)).run ts
    if rest.isEmpty then return n
    let problem :=
      match rest with
      | ⟨.op "=", _⟩ :: _ => "attempted assignment to non-variable"
      | ⟨.bad, _⟩ :: _ => "syntax error: invalid arithmetic operator"
      | _ => "syntax error in expression"
    let (n, _) ← (fault k "expecting EOF" problem rest : Sum Int).run rest
    return n

/-- The value of an expression that is given as text. -/
def evaluate (t : Raw) : Run Int := evaluateWithin 64 t

end LuaTree.Shell.Arithmetic

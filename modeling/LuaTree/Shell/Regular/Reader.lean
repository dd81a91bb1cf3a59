import LuaTree.Shell.Regular.Basic

/-!
# Reading regular expressions

The two ways in which regular expressions are written: the basic one, where most operators stand behind a
backslash, and the extended one, where a backslash takes their meaning away.
-/

namespace LuaTree.Shell.Regular

/-- How expressions are written. -/
structure Style where
  isExtended : Bool -- whether operators stand without a backslash
  isLenient : Bool := false -- whether operators that have nothing to work on are passed over
  -- whether a backslash and a letter may stand for a character, also within brackets
  hasLetters : Bool := false
  isStrict : Bool := false -- whether a set that looks like the name of a class is a mistake
  -- whether a backslash and a letter may stand for digits, and parts need not be remembered
  isRich : Bool := false

/-- What is wrong with an expression. -/
inductive Fault where
  | lastBracket -- a bracket comes last
  | bareClass -- a set looks like the name of a class
  | openBracket -- a bracket is not closed
  | openPart -- a part is not closed
  | closedPart -- a part is closed that has not been opened
  | openTimes -- a number of times is not closed
  | badTimes -- a number of times makes no sense
  | tooManyTimes
  | badRange -- a range ends before it begins
  | badClass
  | badReference
  | lastBackslash -- a backslash comes last
  | noOperand -- an operator has nothing to work on
  deriving DecidableEq

def Fault.text : Fault → String
  | .lastBracket => "Invalid regular expression"
  | .bareClass => "character class syntax is [[:space:]], not [:space:]"
  | .openBracket => "Unmatched [, [^, [:, [., or [="
  | .openPart => "Unmatched ( or \\("
  | .closedPart => "Unmatched ) or \\)"
  | .openTimes => "Unmatched \\\x7b"
  | .badTimes => "Invalid content of \\\x7b\\\x7d"
  | .tooManyTimes => "Regular expression too big"
  | .badRange => "Invalid range end"
  | .badClass => "Invalid character class name"
  | .badReference => "Invalid back reference"
  | .lastBackslash => "Trailing backslash"
  | .noOperand => "Invalid preceding regular expression"

/-! ## Sets of characters -/

def classes : List (String × List (Char × Char)) :=
  let lower := ('a', 'z')
  let upper := ('A', 'Z')
  let digit := ('0', '9')
  [("alpha", [lower, upper]), ("digit", [digit]), ("alnum", [lower, upper, digit]), ("lower", [lower]),
   ("upper", [upper]), ("space", [('\t', '\r'), (' ', ' ')]), ("blank", [('\t', '\t'), (' ', ' ')]),
   ("punct", [('!', '/'), (':', '@'), ('[', '\x60'), ('\x7b', '~')]), ("print", [(' ', '~')]),
   ("graph", [('!', '~')]), ("cntrl", [('\x00', '\x1f'), ('\x7f', '\x7f')]),
   ("xdigit", [digit, ('a', 'f'), ('A', 'F')])]

def single (c : Char) : Regular := .one { ranges := [(c, c)] }

def anything : Regular := .one { inverted := true, ranges := [] }

def wordSet (inverted : Bool) : Regular :=
  .one { inverted, ranges := [('a', 'z'), ('A', 'Z'), ('0', '9'), ('_', '_')] }

def spaceSet (inverted : Bool) : Regular := .one { inverted, ranges := [('\t', '\r'), (' ', ' ')] }

def letter? : Char → Option Char
  | 'n' => some '\n'
  | 't' => some '\t'
  | 'f' => some '\x0c'
  | 'v' => some '\x0b'
  | 'a' => some '\x07'
  | 'r' => some '\r'
  | _ => none

/-- Reads a named member of a set behind its opening, and what follows its end. -/
def named? (mark : Char) (read : Raw) : Raw → Option (Raw × Raw)
  | [] => none
  | c :: rest =>
    if c = mark ∧ rest.head? = some ']' then some (read.reverse, rest.drop 1) else named? mark (c :: read) rest

/-- Reads one end of a range. -/
def member (k : Style) (t : Raw) : Except Fault (Char × Raw) :=
  match t with
  | '[' :: '.' :: rest =>
    match named? '.' [] rest with
    | some ([c], rest) => .ok (c, rest)
    | _ => .error .openBracket
  | '\\' :: c :: rest =>
    if k.hasLetters then
      match letter? c with
      | some d => .ok (d, rest)
      | none => .ok ('\\', c :: rest)
    else .ok ('\\', c :: rest)
  | c :: rest => .ok (c, rest)
  | [] => .error .openBracket

def rangeFrom (k : Style) (c : Char) (rest : Raw) : Except Fault ((Char × Char) × Raw) :=
  match rest with
  | '-' :: d :: more =>
    if d = ']' then .ok ((c, c), rest)
    else
      match member k (d :: more) with
      | .error e => .error e
      | .ok (d, rest) => if d < c then .error .badRange else .ok ((c, d), rest)
  | rest => .ok ((c, c), rest)

def members (k : Style) : (fuel : Nat) → (isFirst : Bool) → List (Char × Char) → Raw →
    Except Fault (List (Char × Char) × Raw)
  | 0, _, _, _ => .error .openBracket
  | fuel + 1, isFirst, read, t => do
    let beginning (c : Char) (rest : Raw) : Except Fault (List (Char × Char) × Raw) := do
      let (range, rest) ← rangeFrom k c rest
      members k fuel false (range :: read) rest
    match t with
    | [] => throw .openBracket
    | ']' :: rest => if isFirst then beginning ']' rest else return (read.reverse, rest)
    | '[' :: ':' :: rest =>
      match named? ':' [] rest with
      | none => throw .openBracket
      | some (name, rest) =>
        match classes.lookup (String.ofList name) with
        | some ranges => members k fuel false (ranges.reverse ++ read) rest
        | none => throw .badClass
    | '[' :: '=' :: rest =>
      match named? '=' [] rest with
      | some ([c], rest) => members k fuel false ((c, c) :: read) rest
      | _ => throw .openBracket
    | t =>
      let (c, rest) ← member k t
      beginning c rest

def charSet (k : Style) (t : Raw) : Except Fault (CharSet × Raw) := do
  let (inverted, t) := match t with
    | '^' :: t => (true, t)
    | t => (false, t)
  if t = [] then throw .lastBracket
  let (ranges, rest) ← members k (t.length + 2) true [] t
  let inner := (t.take (t.length - rest.length)).dropLast
  if k.isStrict ∧ inner.head? = some ':' ∧ inner.getLast? = some ':' ∧ inner.any (· ≠ ':')
      ∧ ranges.all fun (a, b) => a = b then
    throw .bareClass
  return ({ inverted, ranges }, rest)

/-! ## Expressions -/

/-- The place that has been reached. -/
structure State where
  rest : Raw
  opened : Nat := 0
  closed : List Nat := []
  -- the operators that had nothing to work on and have been passed over, the last one first
  idle : List Raw := []

/-- A number of times: how often at least and at most. -/
def interval? (close : Raw) (t : Raw) : Except Fault (Option ((Nat × Option Nat) × Raw)) :=
  let least := t.takeWhile Char.isDigit
  let rest := t.drop least.length
  let number (d : Raw) : Nat := (Raw.nat? d).getD 0
  let ended (m : Nat) (n? : Option Nat) (rest : Raw) : Except Fault (Option ((Nat × Option Nat) × Raw)) :=
    if !close.isPrefixOf rest then if rest = [] then .error .openTimes else .error .badTimes
    else if n?.any (· < m) then .error .badTimes
    else if 32767 < m ∨ n?.any (32767 < ·) then .error .tooManyTimes
    else .ok (some ((m, n?), rest.drop close.length))
  match rest with
  | ',' :: rest =>
    let most := rest.takeWhile Char.isDigit
    ended (number least) (if most = [] then none else some (number most)) (rest.drop most.length)
  | rest =>
    if least = [] then if rest = [] then .error .openTimes else .error .badTimes
    else ended (number least) (some (number least)) rest

/-- What stands next. -/
inductive Sign where
  | item (r : Regular)
  | opening
  | closing
  | choice
  | repeated (least : Nat) (most? : Option Nat)
  | reference (n : Nat)

/-- The sign that a character behind a backslash makes in either style. -/
def escapedSign (k : Style) (c : Char) : Sign :=
  match c with
  | 'w' => .item (wordSet false)
  | 'W' => .item (wordSet true)
  | 's' => .item (spaceSet false)
  | 'S' => .item (spaceSet true)
  | '<' => .item (.edge true false)
  | '>' => .item (.edge false true)
  | 'b' => .item (.edge true true)
  | 'B' => .item (.edge false false)
  | '\x60' => .item .start
  | '\'' => .item .finish
  | c =>
    if '1' ≤ c ∧ c ≤ '9' then .reference (c.toNat - 48)
    else if k.isRich ∧ (c = 'd' ∨ c = 'D') then
      .item (.one { inverted := c = 'D', ranges := [('0', '9')] })
    else
      match if k.hasLetters then letter? c else none with
      | some d => .item (single d)
      | none => .item (single c)

/-- Reads what stands next; `atStart` tells whether a branch begins here. -/
def sign (k : Style) (atStart : Bool) (t : Raw) : Except Fault (Sign × Raw) := do
  let times (close : String) (rest : Raw) : Except Fault (Option (Sign × Raw)) := do
    match ← interval? close.toList rest with
    | some ((m, n?), rest) => return some (.repeated m n?, rest)
    | none => return none
  match t with
  | [] => throw .noOperand
  | '.' :: rest => return (.item anything, rest)
  | '[' :: rest =>
    let (set, rest) ← charSet k rest
    return (.item (.one set), rest)
  | '\\' :: [] => throw .lastBackslash
  | '\\' :: c :: rest =>
    if !k.isExtended then
      match c with
      | '(' => return (.opening, rest)
      | ')' => return (.closing, rest)
      | '|' => return (.choice, rest)
      | '+' => return (if atStart then .item (single '+') else .repeated 1 none, rest)
      | '?' => return (if atStart then .item (single '?') else .repeated 0 (some 1), rest)
      | '\x7b' =>
        if atStart then
          if k.isLenient then return (.item (single '\x7b'), rest) else throw .noOperand
        match ← times "\\\x7d" rest with
        | some answer => return answer
        | none => throw .badTimes
      | c => return (escapedSign k c, rest)
    else return (escapedSign k c, rest)
  | c :: rest =>
    if k.isExtended then
      match c with
      | '(' =>
        let isPlain : Bool := k.isRich && (rest.take 2 = ['?', ':'])
        return (.opening, if isPlain then rest.drop 2 else rest)
      | ')' => return (.closing, rest)
      | '|' => return (.choice, rest)
      | '*' => return (.repeated 0 none, rest)
      | '+' => return (.repeated 1 none, rest)
      | '?' => return (.repeated 0 (some 1), rest)
      | '^' => return (.item .start, rest)
      | '$' => return (.item .finish, rest)
      | '\x7b' =>
        match times "\x7d" rest with
        | .ok (some answer) => return answer
        | .ok none => return (.item (single '\x7b'), rest)
        | .error e =>
          if k.isLenient ∧ e ≠ .tooManyTimes ∧ !(rest.head?.any fun d => d.isDigit && rest.contains '\x7d') then
            return (.item (single '\x7b'), rest)
          throw e
      | c => return (.item (single c), rest)
    else
      match c with
      | '*' => return (if atStart then .item (single '*') else .repeated 0 none, rest)
      | '^' => return (.item (if atStart then .start else single '^'), rest)
      | '$' =>
        let ends := match rest with
          | [] => true
          | '\\' :: d :: _ => d = ')' || d = '|'
          | _ => false
        return (.item (if ends then .finish else single '$'), rest)
      | c => return (.item (single c), rest)

/-- Joins the items of a branch, the last one first. -/
def joined : List Regular → Regular
  | [] => .nothing
  | r :: rs => rs.foldl (fun after before => .both before after) r

/-- Reads alternatives up to the end of the part, or to the end of all. -/
def alternatives (k : Style) (isPart : Bool) :
    (fuel : Nat) → (done? : Option Regular) → (items : List Regular) → State → Except Fault (Regular × State)
  | 0, _, _, _ => .error .noOperand
  | fuel + 1, done?, items, s => do
    let whole : Regular := match done? with
      | some r => .either r (joined items)
      | none => joined items
    if s.rest = [] then
      if isPart then throw .openPart else return (whole, s)
    let isStartSign (r : Regular) : Bool := match r with
      | .start => true
      | _ => false
    let atStart := items.isEmpty || (items.length = 1 && !k.isExtended && items.all isStartSign)
    -- a second caret is a character
    let (sign, rest) ← match s.rest, atStart && !items.isEmpty with
      | '^' :: rest, true => pure (Sign.item (single '^'), rest)
      | t, _ => sign k atStart t
    let after := { s with rest }
    match sign with
    | .item r => alternatives k isPart fuel done? (r :: items) after
    | .choice => alternatives k isPart fuel (some whole) [] after
    | .opening =>
      let n := s.opened + 1
      let (r, after) ← alternatives k true fuel none [] { after with opened := n }
      alternatives k isPart fuel done? (.group n r :: items) { after with closed := n :: after.closed }
    | .closing =>
      if isPart then return (whole, after)
      if k.isExtended ∧ k.isLenient then alternatives k isPart fuel done? (single ')' :: items) after
      else throw .closedPart
    | .reference n =>
      if s.closed.contains n then alternatives k isPart fuel done? (.again n :: items) after
      else throw .badReference
    | .repeated m n? =>
      let operator : Raw := match s.rest with
        | '\x7b' :: _ => "\x7b...\x7d".toList
        | t => t.take 1
      let passed := { after with idle := operator :: after.idle }
      match items with
      | r :: more =>
        let isRepeated : Bool := match r, s.rest with
          | .times _ _ _, '*' :: _ | .times _ _ _, '\\' :: '\x7b' :: _ => true
          | _, _ => false
        if isRepeated ∧ !k.isExtended ∧ !k.isLenient then throw .noOperand
        else if isStartSign r ∧ more.isEmpty ∧ k.isExtended then
          if k.isLenient then alternatives k isPart fuel done? items passed else throw .noOperand
        else alternatives k isPart fuel done? (.times m n? r :: more) after
      | [] => if k.isLenient then alternatives k isPart fuel done? items passed else throw .noOperand

/-- Reads an expression; answers also with what has been met. -/
def readWhole (k : Style) (t : Raw) : Except Fault (Regular × State) :=
  alternatives k false (2 * t.length + 4) none [] { rest := t }

/-- Reads an expression; answers also with the number of its parts. -/
def read (k : Style) (t : Raw) : Except Fault (Regular × Nat) :=
  (readWhole k t).map fun (r, s) => (r, s.opened)

end LuaTree.Shell.Regular

import LuaTree.Shell.Reader

/-!
# Reading words and tokens

Tokens are words, operators and redirections. Quoting is settled here; the inside of a substitution is
only read to find its end, and kept as text. To find the end of a script inside of a word takes a reader of
commands, which is a parameter here (`nested`): it reads commands up to the parenthesis that closes them.
-/

namespace LuaTree.Shell.Lexer

open Reader

/-- The character that encloses a substitution in the old style. -/
def grave : Char := '\x60'

/-- Whether a character separates words within a line. -/
def isBlank (c : Char) : Bool := c = ' ' || c = '\t'

def endsWord (c : Char) : Bool := isBlank c || "\n;&|()<>".toList.contains c

/-! ## Words -/

/-- Where the characters of a word stand. -/
inductive Context where
  | free -- free; a word ends at a separator
  | operand -- in the operand of a parameter, which a brace ends
  -- in the operand of a parameter that is quoted; quotes inside of it only keep braces from ending it
  | quotedOperand (within : Bool)
  | string -- between double quotes
  | document -- in a text from the script, where double quotes are ordinary
  | sum (depth : Nat) -- in a sum, some parentheses deep
  | expression (depth : Nat) -- in a regular expression, where parentheses belong to the word
  deriving DecidableEq

namespace Context

def quoted : Context → Bool
  | .free | .operand | .expression _ => false
  | .quotedOperand _ | .string | .document | .sum _ => true

/-- Which characters a backslash quotes. -/
def escapes (k : Context) (c : Char) : Bool :=
  match k with
  | .free | .operand | .expression _ => true
  | .quotedOperand _ => c = '"' || c = '$' || c = grave || c = '\\' || c = '\x7d'
  | .string => c = '"' || c = '$' || c = grave || c = '\\'
  | .document | .sum _ => c = '$' || c = grave || c = '\\'

def isPlain (k : Context) (c : Char) : Bool :=
  if c = '\\' || c = '$' || c = grave || c = '"' then false
  else
    match k with
    | .free => c ≠ '\'' && !endsWord c
    | .operand => c ≠ '\'' && c ≠ '\x7d'
    | .quotedOperand _ => c ≠ '\x7d'
    | .string | .document => true
    | .sum _ => c ≠ '(' && c ≠ ')'
    | .expression _ => c ≠ '\'' && !endsWord c

end Context

/-- The line that counts for what is opened here if it is never closed: where the word begins in the plain
dialect, and the line itself in the extended one. -/
def opening (start : Nat) : Reader Nat := do
  let s ← get
  return if s.dialect = .extended then s.line else start

/-- Reads up to a closing sign; in the extended dialect a mistake counts where the reading begins. -/
def closed {α : Type} (read : Reader α) : Reader α := do
  let s ← get
  if s.dialect = .plain then read
  else tryCatchThe Mistake read fun m => throw { m with line := s.line }

/-- Reads up to the closing grave accent and takes away one level of backslashes. -/
def graved (quoted : Bool) : (fuel : Nat) → Array Char → Reader Raw
  | 0, _ => fail .openGrave
  | fuel + 1, read => do
    match ← take? with
    | none => fail .openGrave
    | some '\\' =>
      match ← raw? with
      | none => fail .openGrave
      | some c =>
        if c = grave || c = '\\' || c = '$' || (quoted && c = '"') then graved quoted fuel (read.push c)
        else graved quoted fuel ((read.push '\\').push c)
    | some c => if c = grave then return read.toList else graved quoted fuel (read.push c)

/-- The character that an escape in a quoted text stands for, as `$'…'` has them. -/
def ansi : (fuel : Nat) → Array Char → Raw → Raw
  | 0, read, _ => read.toList
  | _ + 1, read, [] => read.toList
  | fuel + 1, read, '\\' :: c :: rest =>
    let number (base digits : Nat) (t : Raw) : Option (Nat × Raw) :=
      let value (c : Char) : Nat :=
        if c.isDigit then c.toNat - 48 else if c.isAlpha then c.toLower.toNat - 87 else base
      let ds := (t.take digits).takeWhile fun c => value c < base
      if ds = [] then none else some (ds.foldl (fun n c => n * base + value c) 0, t.drop ds.length)
    let simple? : Option Char :=
      match c with
      | 'a' => some '\x07'
      | 'b' => some '\x08'
      | 'e' | 'E' => some '\x1b'
      | 'f' => some '\x0c'
      | 'n' => some '\n'
      | 'r' => some '\r'
      | 't' => some '\t'
      | 'v' => some '\x0b'
      | '\\' | '\'' | '"' | '?' => some c
      | _ => none
    match simple? with
    | some d => ansi fuel (read.push d) rest
    | none =>
      let coded (n : Nat) : Array Char := read ++ (Raw.ofBytes (Utf8.encode [Char.ofNat n])).toArray
      match c, number 16 2 rest, number 16 4 rest, number 16 8 rest, number 8 3 (c :: rest) with
      | 'x', some (n, rest), _, _, _ => ansi fuel (read.push (Char.ofNat n)) rest
      | 'u', _, some (n, rest), _, _ => ansi fuel (coded n) rest
      | 'U', _, _, some (n, rest), _ => ansi fuel (coded n) rest
      | _, _, _, _, some (n, rest) => ansi fuel (read.push (Char.ofNat (n % 256))) rest
      | _, _, _, _, none => ansi fuel ((read.push '\\').push c) rest
  | fuel + 1, read, c :: rest => ansi fuel (read.push c) rest

/-- What is put between the braces of a parameter, by the way it is done. -/
inductive Operand where
  | none
  | text -- a text that is quoted if the parameter is
  | pattern

def parameterHead (dialect : Dialect) : Reader Operand := do
  let isSpecial (c : Char) : Bool := "@*#?-$!".toList.contains c
  let name : Reader Bool := do
    match ← glance with
    | some c =>
      if Raw.startsName c then
        discard (Reader.takeWhile Raw.inName)
        return true
      else if c.isDigit then
        discard (Reader.takeWhile Char.isDigit)
        return true
      else if isSpecial c then
        discard raw?
        return true
      else return false
    | none => return false
  let s ← get
  let ahead := s.rest.drop 1
  -- a sharp sign in front asks for a length, unless it is the parameter itself
  if s.rest.head? = some '#' then
    match ahead with
    | c :: d :: _ =>
      if Raw.inName c || (isSpecial c && d = '\x7d') then
        discard raw?
        discard name
        return .none
    | _ => pure ()
  if dialect = .extended ∧ s.rest.head? = some '!' ∧ ahead.head?.any Raw.startsName then discard raw?
  if !(← name) then return .none
  if dialect = .extended ∧ (← glance) = some '[' then
    discard (Reader.takeWhile (· ≠ ']'))
    discard (takeIf (· = ']'))
  match (← get).rest with
  | '%' :: _ | '#' :: _ =>
    let c ← raw?
    discard (takeIf (some · = c))
    return .pattern
  | ':' :: c :: _ =>
    if "-+?=".toList.contains c then
      skip 2
      return .text
    return .none
  | c :: _ =>
    if "-+?=".toList.contains c then
      skip 1
      return .text
    else if dialect = .extended ∧ "/^,".toList.contains c then
      skip 1
      return .pattern
    return .none
  | [] => return .none

mutual

/-- Reads the pieces of a word, last one first, up to the end of its context; `start` is the line where
the word begins. -/
def pieces (nested : Reader Unit) (start : Nat) :
    (fuel : Nat) → Context → List Piece → Reader (List Piece)
  | 0, _, _ => fail (.openQuote '"')
  | fuel + 1, k, read => do
    let go (k : Context) (read : List Piece) : Reader (List Piece) := pieces nested start fuel k read
    match ← glance with
    | none =>
      let isExtended : Bool := (← get).dialect = .extended
      let opened? := if isExtended then some start else none
      match k with
      | .free | .document | .expression _ => return read
      | .operand => fail .openBrace start
      | .sum _ => fail .openSum opened?
      | .string => fail (.openQuote '"') opened?
      | .quotedOperand _ => fail (if isExtended then .openBrace else .openQuote '"') opened?
    | some c =>
      if k.isPlain c then
        return ← go k (.text k.quoted (← Reader.takeWhile k.isPlain) :: read)
      if k = .free ∧ endsWord c then
        if (c = '<' ∨ c = '>') ∧ (← get).dialect = .extended ∧ (← get).rest[1]? = some '('
            ∧ read = [] then
          skip 2
          let line := (← get).line
          let ((), script) ← measured nested
          return ← go k (.process (c = '<') line script.dropLast :: read)
        return read
      match k, c with
      | .expression depth, _ =>
        if c = '(' then
          discard raw?
          return ← go (.expression (depth + 1)) (.text false [c] :: read)
        if c = ')' ∧ 0 < depth then
          discard raw?
          return ← go (.expression (depth - 1)) (.text false [c] :: read)
        if endsWord c then
          if c = '|' ∨ (0 < depth ∧ c ≠ '\n') then
            discard raw?
            return ← go k (.text false [c] :: read)
          return read
      | .sum depth, '(' =>
        discard raw?
        return ← go (.sum (depth + 1)) (.text true ['('] :: read)
      | .sum depth, ')' =>
        discard raw?
        if 0 < depth then return ← go (.sum (depth - 1)) (.text true [')'] :: read)
        if ← takeIf (· = ')') then return read
        return ← go k (.text true [')'] :: read)
      | .sum _, '"' | .document, '"' =>
        discard raw?
        return ← go k (.text true ['"'] :: read)
      | .operand, '\x7d' | .quotedOperand false, '\x7d' =>
        discard raw?
        return read
      | .quotedOperand true, '\x7d' =>
        discard raw?
        return ← go k (.text true ['\x7d'] :: read)
      | .string, '"' =>
        discard raw?
        return read
      | .quotedOperand within, '"' =>
        discard raw?
        return ← go (.quotedOperand !within) read
      | _, _ => pure ()
      discard raw?
      if c = '\\' then
        match ← raw? with
        | none => go k (.text true ['\\'] :: read)
        | some d => go k (.text true (if k.escapes d then [d] else ['\\', d]) :: read)
      else if c = '$' then
        let piece ← dollar nested start fuel k
        go k (piece ++ read)
      else if c = grave then
        -- its lines are counted anew
        let s ← get
        let line := if s.dialect = .plain then 1 else s.line
        let script ← closed (graved k.quoted fuel #[])
        -- the script is read for its mistakes only
        let source : Source := { rest := script, line, dialect := (← get).dialect, isWhole := true }
        match nested.run source with
        | .ok _ => go k (.output k.quoted line script :: read)
        | .error mistake => throw mistake
      else if c = '\'' then
        let text ← closed (untilQuote fuel #[])
        go k (.text true text :: read)
      else
        let inner ← pieces nested (← opening start) fuel .string []
        -- an empty string is still a word
        go k ((if inner = [] then [.text true []] else inner) ++ read)

def dollar (nested : Reader Unit) (start : Nat) : (fuel : Nat) → Context → Reader (List Piece)
  | 0, _ => fail (.openQuote '"')
  | fuel + 1, k => do
    let quoted := k.quoted
    let dialect := (← get).dialect
    match ← glance with
    | none => return [.text quoted ['$']]
    | some '(' =>
      discard raw?
      let isSum ← if (← glance) = some '(' then
          if dialect = .plain then pure true else closesTwice nested start fuel
        else pure false
      if isSum then
        discard take?
        let (_, text) ← measured (pieces nested (← opening start) fuel (.sum 0) [])
        return [.arithmetic quoted (text.take (text.length - 2))]
      else
        let line := (← get).line
        let ((), script) ← measured nested
        return [.output quoted line script.dropLast]
    | some '\x7b' =>
      discard raw?
      let (_, text) ← measured do
        let operand ← parameterHead dialect
        let inner : Context :=
          match operand, quoted with
          | .pattern, _ => .operand
          | _, true => .quotedOperand false
          | _, false => .operand
        discard (pieces nested (← opening start) fuel inner [])
      return [.parameter quoted text.dropLast]
    | some c =>
      if Raw.startsName c then return [.parameter quoted (← Reader.takeWhile Raw.inName)]
      else if c.isDigit || "@*#?-$!".toList.contains c then
        discard raw?
        return [.parameter quoted [c]]
      else if dialect = .extended ∧ c = '\'' ∧ !quoted then
        discard raw?
        let text ← closed (untilQuote fuel #[] true)
        return [.text true (ansi (text.length + 1) #[] text)]
      else if dialect = .extended ∧ c = '"' ∧ !quoted then return []
      else return [.text quoted ['$']]

/-- Whether two parentheses are closed by two as well. -/
def closesTwice (nested : Reader Unit) (start : Nat) : (fuel : Nat) → Reader Bool
  | 0 => return false
  | fuel + 1 => do
    let s ← get
    let attempt : Reader Bool := do
      discard raw?
      let (_, text) ← measured (pieces nested (← opening start) fuel (.sum 0) [])
      -- parentheses that are closed too early show that it was no sum
      let balance := text.foldl (fun (n, low) c =>
        let n : Int := if c = '(' then n + 1 else if c = ')' then n - 1 else n
        (n, min n low)) ((2 : Int), (2 : Int))
      return balance.2 = 0
    match (attempt.run s : Except Mistake (Bool × Source)) with
    | .ok (isSum, _) => return isSum
    | .error mistake => throw mistake

/-- Reads up to a single quote; backslashes may be in force. -/
def untilQuote : (fuel : Nat) → Array Char → (escapes : Bool := false) → Reader Raw
  | 0, _, _ => fail (.openQuote '\'')
  | fuel + 1, read, escapes => do
    match ← raw? with
    | none => fail (.openQuote '\'')
    | some '\'' => return read.toList
    | some c =>
      if escapes ∧ c = '\\' then
        match ← raw? with
        | some d => untilQuote fuel ((read.push c).push d) escapes
        | none => fail (.openQuote '\'')
      else untilQuote fuel (read.push c) escapes

end

/-- Puts pieces in order and joins neighbouring texts. -/
def assemble (read : List Piece) : Word :=
  read.foldl (fun word piece =>
    match piece, word with
    | .text q t, .text q' t' :: rest =>
      if q = q' then .text q (t ++ t') :: rest else piece :: word
    | _, _ => piece :: word) []

/-- More steps than reading a text takes. -/
def fuelFor (t : Raw) : Nat := 8 * t.length + 64

/-- Reads a text as a word; an operand ends where its text does. -/
def word (dialect : Dialect) (nested : Reader Unit) (k : Context) (line : Nat) (t : Raw) :
    Except Mistake Word :=
  let rest := match k with
    | .operand | .quotedOperand _ => t ++ ['\x7d']
    | _ => t
  ((pieces nested line (fuelFor t) k []).run { rest, line, dialect }).map fun (read, _) => assemble read

/-- The characters of a word whose quotes are taken off. -/
def unquoted (w : Word) : Raw :=
  w.flatMap fun
    | .text _ t => t
    | .parameter _ t => '$' :: t
    | .output _ _ t => '$' :: '(' :: t ++ [')']
    | .arithmetic _ t => "$((".toList ++ t ++ "))".toList
    | .process _ _ t => '<' :: '(' :: t ++ [')']

/-! ## Lines for redirections -/

def documentLines (a : Awaited) : (fuel : Nat) → (joined : Bool) → List Raw → Reader Raw
  | 0, _, read => return read.reverse.flatten
  | fuel + 1, joined, read => do
    let s ← get
    if s.rest = [] then return read.reverse.flatten
    let line := s.rest.takeWhile (· ≠ '\n')
    let rest := (s.rest.drop line.length).drop 1
    set { s with rest, line := s.line + 1, lineStart := rest }
    let line := if a.strip ∧ !joined then line.dropWhile (· = '\t') else line
    if line = a.delimiter ∧ !joined then return read.reverse.flatten
    let slashes := (line.reverse.takeWhile (· = '\\')).length
    documentLines a fuel (!a.literal && slashes % 2 = 1) ((line ++ ['\n']) :: read)

/-- Reads the lines that redirections wait for, at the start of a line. -/
def documents (nested : Reader Unit) : Reader Unit := do
  let awaited := (← get).awaited
  if awaited.isEmpty then return ()
  modify fun s => { s with awaited := [] }
  for a in awaited do
    let line := (← get).line
    let text ← documentLines a (fuelFor (← get).rest) false []
    let w ←
      if a.literal then pure [Piece.text true text]
      else liftM (word (← get).dialect nested .document line text)
    modify fun s => { s with documents := (a.number, w) :: s.documents }

/-! ## Tokens -/

/-- Reads a redirection operator, which comes next. -/
def redirection (descriptor? : Option Nat) : Reader Token := do
  let extended := (← get).dialect = .extended
  if ← takeIf (· = '>') then
    let d := descriptor?.getD 1
    if ← takeIf (· = '>') then return .redirect d .append
    else if ← takeIf (· = '|') then return .redirect d .replace
    else if ← takeIf (· = '&') then return .redirect d .same
    else return .redirect d .output
  else
    discard take?
    let d := descriptor?.getD 0
    if ← takeIf (· = '<') then
      if extended then
        if ← takeIf (· = '<') then return .redirect d .string
      return .lines d (← takeIf (· = '-'))
    else if ← takeIf (· = '&') then return .redirect d .same
    else if ← takeIf (· = '>') then return .redirect d .both
    else return .redirect d .input

/-- The variable that a word sets to a list, if a parenthesis comes next. -/
def listHead? (w : Word) : Option Assignment :=
  match w with
  | [.text false t] =>
    let name := t.takeWhile Raw.inName
    if !Raw.isName name then none
    else
      match t.drop name.length with
      | ['='] => some { name, value := .list [] }
      | ['+', '='] => some { name, adds := true, value := .list [] }
      | _ => none
  | _ => none

/-- Reads the words of a list, which has been opened in the given line, up to its parenthesis. -/
def listWords (nested : Reader Unit) (start : Nat) : (fuel : Nat) → List Word → Reader (List Word)
  | 0, read => return read.reverse
  | fuel + 1, read => do
    match ← glance with
    | none => fail .openParenthesis start
    | some ')' =>
      discard raw?
      return read.reverse
    | some c =>
      if isBlank c ∨ c = '\n' then
        discard raw?
        listWords nested start fuel read
      else if c = '#' then
        discard (Reader.takeWhile (· ≠ '\n'))
        listWords nested start fuel read
      else
        -- the place of a value may hold blanks
        let s ← get
        let place := if c = '[' then s.rest.takeWhile fun c => c ≠ ']' && c ≠ '\n' else []
        let isPlaced := c = '[' && "]=".toList.isPrefixOf (s.rest.drop place.length)
        let begun : List Piece := if isPlaced then [.text false (place ++ "]=".toList)] else []
        if isPlaced then skip (place.length + 2)
        let w := assemble (← pieces nested (← get).line fuel .free begun)
        if w = [] then fail (.unexpected (.operator (String.ofList [c])) "")
        listWords nested start fuel (w :: read)

def isQuoted (w : Word) : Bool :=
  w.any fun
    | .text q _ => q
    | _ => false

/-- Reads a word that comes next, in a context that is free or like it. -/
def wordToken (nested : Reader Unit) (fuel : Nat) (k : Context) : Reader Token := do
  let w := assemble (← pieces nested (← get).line fuel k [])
  let s ← get
  match w, s.rest.head? with
  | [.text false [d]], some c =>
    if d.isDigit ∧ (c = '<' ∨ c = '>') then return ← redirection (some (d.toNat - 48))
  | [.text false t], some c =>
    if s.dialect = .extended ∧ t.all Char.isDigit ∧ (c = '<' ∨ c = '>') then
      return ← redirection (Raw.nat? t)
  | _, _ => pure ()
  if s.dialect = .extended ∧ s.rest.head? = some '(' then
    match listHead? w with
    | some a =>
      discard raw?
      return .list { a with value := .list (← listWords nested s.line fuel []) }
    | none => pure ()
  return .word w (isQuoted w)

def token (nested : Reader Unit) : (fuel : Nat) → Reader Token
  | 0 => return .finish
  | fuel + 1 => do
    let s ← get
    match s.back? with
    | some t =>
      set { s with back? := none }
      return t
    | none =>
      let extended := s.dialect = .extended
      match ← glance with
      | none =>
        documents nested
        return .finish
      | some '\n' =>
        discard raw?
        documents nested
        return .operator "\n"
      | some '#' =>
        -- a backslash joins no lines here
        modify fun s => { s with rest := s.rest.dropWhile (· ≠ '\n') }
        token nested fuel
      | some '&' =>
        discard raw?
        if ← takeIf (· = '&') then return .operator "&&"
        if extended then
          if ← takeIf (· = '>') then return .redirect 1 (.withErrors (← takeIf (· = '>')))
        return .operator "&"
      | some '|' =>
        discard raw?
        if ← takeIf (· = '|') then return .operator "||"
        if extended then
          if ← takeIf (· = '&') then return .operator "|&"
        return .operator "|"
      | some ';' =>
        discard raw?
        if ← takeIf (· = ';') then
          if extended then
            if ← takeIf (· = '&') then return .operator ";;&"
          return .operator ";;"
        if extended then
          if ← takeIf (· = '&') then return .operator ";&"
        return .operator ";"
      | some '(' =>
        discard raw?
        return .operator "("
      | some ')' =>
        discard raw?
        return .operator ")"
      | some c =>
        if isBlank c then
          discard raw?
          token nested fuel
        else if (c = '<' ∨ c = '>') ∧ !(extended ∧ (← get).rest[1]? = some '(') then redirection none
        else wordToken nested fuel .free

end LuaTree.Shell.Lexer

import LuaTree.Shell.Utility.Awk.Basic

/-!
# Words of programs

A program text is cut into tokens, each with the number of its line. Whether a slash divides or begins a regular
expression is told by the token before it.
-/

namespace LuaTree.Shell.Awk

/-- A token. -/
inductive Token where
  | number (x : Float)
  | text (t : Raw)
  | regular (t : Raw) -- a regular expression between slashes
  | name (t : Raw)
  | callee (t : Raw) -- a name with a parenthesis right behind it
  | known (t : Raw) -- the name of a function that every program has
  | keyword (t : String)
  | sign (t : String)
  | newline
  deriving Inhabited

def Token.isSign (t : String) : Token → Bool
  | .sign s => s = t
  | _ => false

def Token.isKeyword (t : String) : Token → Bool
  | .keyword s => s = t
  | _ => false

def Token.shown : Token → Raw
  | .number x => textOfNumber "%.6g".toList x
  | .text t => ['"'] ++ t ++ ['"']
  | .regular t => ['/'] ++ t ++ ['/']
  | .name t | .callee t | .known t => t
  | .keyword t | .sign t => t.toList
  | .newline => "end of line".toList

def keywords : List String :=
  ["function", "BEGIN", "END", "if", "else", "while", "for", "do", "break", "continue", "return", "exit", "next",
   "nextfile", "delete", "in", "getline", "print", "printf"]

def knownFunctions : List String :=
  ["length", "substr", "index", "split", "sub", "gsub", "match", "sprintf", "sin", "cos", "atan2", "exp", "log",
   "sqrt", "int", "rand", "srand", "tolower", "toupper", "system", "close", "fflush"]

/-- The signs, longer ones first. -/
def signs : List String :=
  ["||", "&&", "==", "!=", "<=", ">=", ">>", "!~", "++", "--", "+=", "-=", "*=", "/=", "%=", "^=", "\x7b", "\x7d",
   "(", ")", "[", "]", ";", ",", "+", "-", "*", "/", "%", "^", "!", ">", "<", "|", "?", ":", "~", "$", "="]

/-- What is wrong with a program, and the line. -/
structure Fault where
  message : Raw
  line : Nat
  isBare : Bool := false -- whether the line is named by its number alone

/-- The character that a letter behind a backslash stands for. -/
def escape? : Char → Option Char
  | '"' => some '"'
  | '\\' => some '\\'
  | c => Format.escaped? c

/-- A text with its backslash sequences put in; those that are not known stay. -/
def unescaped : (fuel : Nat) → Raw → Raw
  | 0, _ | _, [] => []
  | _, ['\\'] => ['\\']
  | fuel + 1, '\\' :: c :: rest =>
    match escape? c with
    | some d => d :: unescaped fuel rest
    | none =>
      if Format.isOctal c then
        let (n, rest) := Format.octal 3 0 (c :: rest)
        Format.byte n :: unescaped fuel rest
      else
        match c, Format.hex? 2 rest with
        | 'x', some (n, rest) => Format.byte n :: unescaped fuel rest
        | _, _ => if c = '\n' then unescaped fuel rest else '\\' :: c :: unescaped fuel rest
  | fuel + 1, c :: rest => c :: unescaped fuel rest

def quoted : (read : Raw) → Raw → Option (Raw × Raw)
  | _, [] => none
  | read, '"' :: rest => some (read.reverse, rest)
  | read, '\\' :: c :: rest => quoted (c :: '\\' :: read) rest
  | read, c :: rest => if c = '\n' then none else quoted (c :: read) rest

/-- Takes a regular expression up to the slash that closes it, which may stand between brackets as well. -/
def slashed : (inside : Bool) → (read : Raw) → Raw → Option (Raw × Raw)
  | _, _, [] => none
  | inside, read, '\\' :: c :: rest =>
    if c = '/' then slashed inside ('/' :: read) rest else slashed inside (c :: '\\' :: read) rest
  | false, read, '[' :: ']' :: rest => slashed true (']' :: '[' :: read) rest
  | false, read, '[' :: '^' :: ']' :: rest => slashed true (']' :: '^' :: '[' :: read) rest
  | inside, read, c :: rest =>
    if c = '\n' then none
    else if c = '/' ∧ !inside then some (read.reverse, rest)
    else slashed (if c = '[' then true else if c = ']' then false else inside) (c :: read) rest

/-- Whether a slash behind a token divides. -/
def Token.endsOperand : Token → Bool
  | .number _ | .text _ | .regular _ | .name _ | .known _ => true
  | .sign s => [")", "]", "++", "--"].contains s
  | _ => false

def numberAt (t : Raw) : Raw × Raw :=
  let digits (t : Raw) : Raw := t.takeWhile Char.isDigit
  let whole := digits t
  let rest := t.drop whole.length
  let part : Raw := match rest with
    | '.' :: rest => '.' :: digits rest
    | _ => []
  let rest := rest.drop part.length
  let exponent : Raw := match rest with
    | e :: more =>
      if e = 'e' ∨ e = 'E' then
        let mark : Raw := match more with
          | '+' :: _ => ['+']
          | '-' :: _ => ['-']
          | _ => []
        let ds := digits (more.drop mark.length)
        if ds = [] then [] else e :: mark ++ ds
      else []
    | [] => []
  (whole ++ part ++ exponent, rest.drop exponent.length)

def wordOf (name : Raw) (rest : Raw) : Token :=
  let text := String.ofList name
  if keywords.contains text then .keyword text
  else if knownFunctions.contains text then .known name
  else if rest.head? = some '(' then .callee name
  else .name name

/-- Cuts a text into tokens with the numbers of their lines. -/
def tokens : (fuel : Nat) → (line : Nat) → (read : List (Token × Nat)) → Raw → Except Fault (List (Token × Nat))
  | 0, _, read, _ => .ok read.reverse
  | _ + 1, _, read, [] => .ok read.reverse
  | fuel + 1, line, read, c :: rest =>
    let add (t : Token) (rest : Raw) : Except Fault (List (Token × Nat)) :=
      tokens fuel line ((t, line) :: read) rest
    if c = '\n' then tokens fuel (line + 1) ((.newline, line) :: read) rest
    else if isBlank c then tokens fuel line read rest
    else if c = '\\' ∧ rest.head? = some '\n' then tokens fuel (line + 1) read (rest.drop 1)
    else if c = '\\' ∧ rest.take 2 = ['\r', '\n'] then tokens fuel (line + 1) read (rest.drop 2)
    else if c = '#' then tokens fuel line read (rest.dropWhile (· ≠ '\n'))
    else if c = '"' then
      match quoted [] rest with
      | some (t, rest) => add (.text (unescaped (t.length + 1) t)) rest
      | none =>
        .error ⟨"runaway string constant \"".toList ++ (rest.takeWhile (· ≠ '\n')).take 10 ++ " ...".toList, line,
          false⟩
    else if c = '/' ∧ !(read.head?.any fun p => p.1.endsOperand) then
      match slashed false [] rest with
      | some (t, rest) => add (.regular t) rest
      | none =>
        .error ⟨"runaway regular expression /".toList ++ (rest.takeWhile (· ≠ '\n')).take 10 ++ " ...".toList, line,
          false⟩
    else if c.isDigit ∨ (c = '.' ∧ rest.head?.any Char.isDigit) then
      let (t, rest) := numberAt (c :: rest)
      let x := leadingNumber t
      if x.isInf then .error ⟨t ++ " : decimal overflow".toList, line, false⟩
      else add (.number x) rest
    else if Raw.startsName c then
      let name := (c :: rest).takeWhile Raw.inName
      let rest := (c :: rest).drop name.length
      add (wordOf name rest) rest
    else
      match signs.find? fun s => s.toList.isPrefixOf (c :: rest) with
      | some s => add (.sign s) ((c :: rest).drop s.length)
      | none => .error ⟨"unexpected character '".toList ++ [c, '\''], line, true⟩

end LuaTree.Shell.Awk

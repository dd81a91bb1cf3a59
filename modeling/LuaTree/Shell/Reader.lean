import LuaTree.Shell.Command

/-!
# Reading scripts

A script is read character by character as it is run, so what stands before a mistake still has its effect.
`Source` is what a reader has before it, and `Reader` is the monad of taking things from it.

A line can be joined to the next one by a backslash at its end; `glance` and `take?` look through such a
joint, while `raw?` does not.
-/

namespace LuaTree.Shell

/-- A piece of punctuation or a word. -/
inductive Token where
  | word (w : Word) (quoted : Bool)
  | operator (text : String) -- a control operator; the end of a line is one of them
  | redirect (descriptor : Nat) (action : Redirect) -- a redirection whose target is the next word
  -- a redirection from lines in the script; the tabs they begin with may be dropped
  | lines (descriptor : Nat) (strip : Bool)
  | list (a : Assignment)
  | finish
  deriving Inhabited

def Token.isOperator (text : String) : Token → Bool
  | .operator t => t = text
  | _ => false

/-- What is wrong with a script. -/
inductive Fault where
  | openQuote (quote : Char)
  | openBrace -- a brace after a dollar sign is never closed
  | openSum
  | openGrave -- a grave accent is never closed
  | openParenthesis
  -- something stands where something else is expected, or nothing in particular
  | unexpected (token : Token) (wanted : String)
  | loopVariable (name : Raw)
  | functionName (name : Raw)
  deriving Inhabited

/-- A mistake in a script. -/
structure Mistake where
  line : Nat
  fault : Fault
  text : Raw := [] -- the text of the line, where it is known
  deriving Inhabited

/-- Lines of the script that a redirection is still waiting for. -/
structure Awaited where
  number : Nat
  delimiter : Raw -- the line that ends the text
  literal : Bool -- whether nothing is put in for anything in it
  strip : Bool -- whether tabs at the start of lines are dropped

/-- What a reader has before it. -/
structure Source where
  rest : Raw
  line : Nat := 1
  dialect : Dialect := .plain
  aliases : List (Raw × Raw) := [] -- the words that stand for other texts
  -- those of them that are being put in, each with how many characters are left behind it
  putIn : List (Raw × Nat) := []
  back? : Option Token := none
  awaited : List Awaited := [] -- the lines that redirections wait for
  documents : List (Nat × Word) := []
  next : Nat := 0 -- the number of the next redirection that waits
  lineStart : Raw := [] -- what the line that is being read begins with
  isWhole : Bool := false -- whether the end of the text stands for the parenthesis that closes it
  deriving Inhabited

/-- A reader: takes characters away, or finds a mistake. -/
abbrev Reader := StateT Source (Except Mistake)

namespace Reader

/-- Complains about the line that is being read. -/
def fail {α : Type} (fault : Fault) (line? : Option Nat := none) : Reader α := do
  let s ← get
  throw { line := line?.getD s.line, fault, text := s.lineStart.takeWhile (· ≠ '\n') }

/-- The next character, whatever it is. -/
def raw? : Reader (Option Char) := do
  let s ← get
  match s.rest with
  | [] => return none
  | c :: rest =>
    set (if c = '\n' then { s with rest, line := s.line + 1, lineStart := rest } else { s with rest })
    return some c

/-- Drops the joints between lines that a text begins with. -/
def unjoined : Raw → Source → Source
  | '\\' :: '\n' :: rest, s => unjoined rest { s with line := s.line + 1, rest, lineStart := rest }
  | _, s => s

/-- Leaves joints between lines behind. -/
def unjoin : Reader Unit := do
  match (← get).rest with
  | '\\' :: '\n' :: _ => modify fun s => unjoined s.rest s
  | _ => return ()

/-- The next character, which stays. -/
def glance : Reader (Option Char) := do
  unjoin
  return (← get).rest.head?

def take? : Reader (Option Char) := do
  unjoin
  raw?

/-- Takes the next character if it passes a test. -/
def takeIf (test : Char → Bool) : Reader Bool := do
  if (← glance).any test then
    discard raw?
    return true
  return false

/-- Takes the next characters if they are the given ones. -/
def takeText (t : String) : Reader Bool := do
  unjoin
  let s ← get
  if t.toList.isPrefixOf s.rest then
    set { s with rest := s.rest.drop t.length }
    return true
  return false

/-- Takes characters as long as they pass a test; joints between lines do not stop it. -/
def takeWhile (test : Char → Bool) : Reader Raw := do
  let mut read := #[]
  for _ in (← get).rest do
    if !(← glance).any test then break
    read := read.push ((← raw?).getD ' ')
  return read.toList

/-- Goes on with what is left behind `n` characters, in which no line ends. -/
def skip (n : Nat) : Reader Unit := modify fun s => { s with rest := s.rest.drop n }

/-- Runs a reader and answers with the text that it took as well. -/
def measured {α : Type} (read : Reader α) : Reader (α × Raw) := do
  let before := (← get).rest
  let a ← read
  let after := (← get).rest
  return (a, before.take (before.length - after.length))

end Reader

end LuaTree.Shell

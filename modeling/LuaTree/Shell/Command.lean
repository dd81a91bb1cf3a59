import LuaTree.Shell.Raw

/-!
# Commands

What a script says, after reading. Words keep track of quoting and of what is still to be put in for them;
the text of a substitution stays as it was written and is read when its turn comes, so words do not
contain commands and commands are an ordinary inductive type.

There are two dialects. The plain one is what every shell understands; the extended one has lists of
values, conditions and sums as commands, and further ways to write what the plain one has.
-/

namespace LuaTree.Shell

/-- How much a shell understands. -/
inductive Dialect where
  | plain -- what every shell understands
  | extended -- that, and lists, conditions, sums and further expansions
  deriving DecidableEq, Inhabited

/-- A part of a word. -/
inductive Piece where
  | text (quoted : Bool) (t : Raw)
  -- the value of a parameter; the text is what stands between the braces
  | parameter (quoted : Bool) (body : Raw)
  | output (quoted : Bool) (line : Nat) (script : Raw)
  | arithmetic (quoted : Bool) (expression : Raw)
  -- the name of a pipe that a script reads from, or writes to
  | process (reads : Bool) (line : Nat) (script : Raw)
  deriving DecidableEq, Inhabited

/-- A word: its parts from left to right. -/
abbrev Word := List Piece

/-- The text of a word that is written plainly, without quotes or substitutions. -/
def Word.plain? : Word → Option Raw
  | [.text false t] => some t
  | _ => none

/-- What a redirection does to its descriptor. -/
inductive Redirect where
  | input -- opens a file for reading
  | output -- empties a file and opens it for writing
  | replace -- the same, whatever is set against it
  | append -- opens a file for writing at its end
  | both -- opens a file for reading and writing
  | same -- makes it lead where another descriptor leads, or closes it
  | document -- lets it read a text from the script
  | string -- lets it read a word
  -- empties a file, or opens it at its end, and lets the standard error lead there as well
  | withErrors (append : Bool)
  deriving DecidableEq, Inhabited

/-- A redirection. -/
structure Redirection where
  descriptor : Nat
  action : Redirect
  target : Word -- the file, the other descriptor or the text
  awaited : Option Nat := none -- the number of the text in the script, while it has not been met
  deriving Inhabited

/-- What a variable is set to. -/
inductive Assigned where
  | text (w : Word)
  | list (ws : List Word)
  deriving Inhabited

/-- The setting of a variable. -/
structure Assignment where
  name : Raw
  index? : Option Raw := none
  adds : Bool := false -- whether something is added to what it holds
  value : Assigned
  deriving Inhabited

/-- A command. -/
inductive Command where
  | nothing
  -- sets variables, or calls a program with words as arguments
  | simple (line : Nat) (assignments : List Assignment) (words : List Word)
      (redirections : List Redirection)
  | sequence (first second : Command)
  | both (first second : Command) -- the second if the first succeeds
  | either (first second : Command) -- the second if the first fails
  | negated (command : Command) -- succeeds if the command fails
  -- the second reads what the first writes, or what it writes anywhere
  | piped (all : Bool) (first second : Command)
  | detached (command : Command)
  | subshell (line : Nat) (command : Command) -- runs in a copy of the shell
  -- runs with some descriptors changed
  | redirected (line : Nat) (command : Command) (redirections : List Redirection)
  | branch (condition yes no : Command)
  -- repeats as long as the condition ends as wanted
  | loop (wanted : Bool) (condition body : Command)
  -- runs once for every field of the words, or for every argument
  | each (line : Nat) (name : Raw) (words : Option (List Word)) (body : Command)
  -- runs as long as a sum is not zero, another one being worked out before and one after each round
  | counted (line : Nat) (first goOn next : Raw) (body : Command)
  -- decides by the form of a word; the second component is made of arms
  | byForm (line : Nat) (subject : Word) (arms : Command)
  -- one arm of a decision by form; behind it the next body, or the next arm, may follow
  | arm (patterns : List Word) (body : Command) (ending : Raw) (next : Command)
  | define (line : Nat) (name : Raw) (body : Command)
  | question (line : Nat) (words : List Word)
  | sum (line : Nat) (expression : Raw) -- works out a sum; fails if it is zero
  | timed (command : Command) -- runs and tells how long that took
  deriving Inhabited

namespace Command

def mapRedirections (f : Redirection → Redirection) : Command → Command
  | .simple line as ws rs => .simple line as ws (rs.map f)
  | .sequence a b => .sequence (a.mapRedirections f) (b.mapRedirections f)
  | .both a b => .both (a.mapRedirections f) (b.mapRedirections f)
  | .either a b => .either (a.mapRedirections f) (b.mapRedirections f)
  | .negated a => .negated (a.mapRedirections f)
  | .piped all a b => .piped all (a.mapRedirections f) (b.mapRedirections f)
  | .detached a => .detached (a.mapRedirections f)
  | .subshell line a => .subshell line (a.mapRedirections f)
  | .redirected line a rs => .redirected line (a.mapRedirections f) (rs.map f)
  | .branch a b c => .branch (a.mapRedirections f) (b.mapRedirections f) (c.mapRedirections f)
  | .loop w a b => .loop w (a.mapRedirections f) (b.mapRedirections f)
  | .each line x ws a => .each line x ws (a.mapRedirections f)
  | .counted line a b c d => .counted line a b c (d.mapRedirections f)
  | .byForm line w a => .byForm line w (a.mapRedirections f)
  | .arm ps a ending b => .arm ps (a.mapRedirections f) ending (b.mapRedirections f)
  | .define line x a => .define line x (a.mapRedirections f)
  | .timed a => .timed (a.mapRedirections f)
  | .question line ws => .question line ws
  | .sum line e => .sum line e
  | .nothing => .nothing

/-- The parts of a pipeline, each with whether its errors go on to the next. -/
def stages : Command → List (Bool × Command)
  | .piped all first second => (all, first) :: second.stages
  | c => [(false, c)]

end Command

end LuaTree.Shell

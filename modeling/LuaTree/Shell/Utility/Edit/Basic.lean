import LuaTree.Shell.Regular.Reader

/-!
# Scripts that edit lines

A script is a row of commands. Each of them has up to two addresses, which tell the lines it is for, and says
what becomes of the line in hand; some go on elsewhere in the row.
-/

namespace LuaTree.Shell.Edit

/-- What is searched for. -/
structure Search where
  regex? : Option Regular -- the regular expression; what was searched for last if there is none
  folds : Bool := false -- whether the case of letters makes no difference
  hasLines : Bool := false -- whether lines begin and end within the text
  deriving Inhabited

/-- Which lines a command is for. -/
inductive Address where
  | line (n : Nat)
  | last
  | found (s : Search)
  | step (first step : Nat)
  | more (n : Nat) -- so many lines behind the first one
  | multiple (n : Nat)
  deriving Inhabited

/-- What is done with letters as they are put in. -/
inductive Casing where
  | upper
  | lower
  | nextUpper
  | nextLower
  | same
  deriving DecidableEq, Inhabited

/-- A piece of what is put in. -/
inductive Insert where
  | text (t : Raw)
  | part (n : Nat)
  | casing (c : Casing) -- a change in how letters are put in
  deriving DecidableEq, Inhabited

/-- Where text is written. -/
inductive Target where
  | output
  | errors
  | file (name : Raw)
  deriving DecidableEq, Inhabited

/-- A change of what is found. -/
structure Change where
  search : Search
  inserts : List Insert
  isGlobal : Bool := false -- whether all matches are changed, and not only one
  prints : Bool := false -- whether the line is written if it has been changed
  first : Nat := 1 -- the first match that is changed
  target? : Option Target := none -- where the line is written if it has been changed
  deriving Inhabited

/-- What a command does. -/
inductive Verb where
  | enter (finish : Nat) -- goes on behind the end of a block unless the line is meant
  | exit
  | label
  | jump (place? : Option Nat) -- goes on elsewhere, or at the end of the script
  -- the same if the line has been changed, or has not
  | jumpIf (isChanged : Bool) (place? : Option Nat)
  | before (t : Raw) -- writes a text before the line
  | after (t : Raw) -- writes a text behind the line
  | instead (t : Raw) -- writes a text in place of the line
  | delete
  | deleteFirst -- drops the line up to its first end
  | takeBack -- takes the line that has been put aside
  | addBack -- adds the line that has been put aside
  | putAside
  | addAside -- adds the line to what has been put aside
  | exchange -- exchanges the line and what has been put aside
  -- writes the line with all characters visible, cut into lines of some length
  | show (width? : Option Nat)
  | next
  | addNext
  | print
  | printFirst -- writes the line up to its first end
  | number
  | fileName
  | clear
  | quit (status : Nat) (isQuiet : Bool) -- ends with a status; the line is written first or not
  | insertFile (name : Raw) -- writes a file behind the line
  | insertLine (name : Raw) -- writes the next line of a file behind the line
  -- writes the line to a file, up to its first end or as a whole
  | write (target : Target) (isFirst : Bool)
  | change (c : Change)
  | map (pairs : List (Char × Char))
  deriving Inhabited

/-- A command. -/
structure Instruction where
  first? : Option Address := none -- the first line it is for
  last? : Option Address := none -- the last line it is for
  isInverted : Bool := false
  verb : Verb
  deriving Inhabited

/-- A script. -/
structure Script where
  edits : Array Instruction := #[]
  isQuiet : Bool := false -- whether lines are written only when a command says so
  deriving Inhabited

def Script.targets (s : Script) : List Raw :=
  (s.edits.toList.filterMap fun e =>
    match e.verb with
    | .write (.file name) _ => some name
    | .change { target? := some (.file name), .. } => some name
    | _ => none).eraseDups

end LuaTree.Shell.Edit

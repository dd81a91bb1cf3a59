import LuaTree.Shell.Script

/-!
# Commands of the shell itself

A shell carries some commands out on its own, because they change its environment or the order of events.
This module holds what they have in common: how they read options and numbers and what they say about those
that are none.
-/

namespace LuaTree.Shell

/-- A command of the shell: from its arguments to its status, given a way to run commands. -/
abbrev Builtin := Runner → List Raw → Run Nat

namespace Builtin

open Run

/-- How the commands of the extended dialect are to be called. -/
def usages : List (String × String) :=
  [("cd", "[-L|[-P [-e]] [-@]] [dir]"), ("pwd", "[-LP]"), ("printf", "[-v var] format [arguments]"),
   ("read", "[-ers] [-a array] [-d delim] [-i text] [-n nchars] [-N nchars] [-p prompt] [-t timeout] [-u fd] [name ...]"),
   ("export", "[-fn] [name[=value] ...] or export -p"), ("unset", "[-f] [-v] [-n] [name ...]"),
   ("readonly", "[-aAf] [name[=value] ...] or readonly -p"), ("trap", "[-lp] [[arg] signal_spec ...]"),
   ("kill", "[-s sigspec | -n signum | -sigspec] pid | jobspec ... or kill -l [sigspec]"),
   ("umask", "[-p] [-S] [mode]"), ("wait", "[-fn] [-p var] [id ...]"), (".", "filename [arguments]"),
   ("getopts", "optstring name [arg ...]"), ("type", "[-afptP] name [name ...]"),
   ("command", "[-pVv] command [arg ...]"),
   ("declare", "[-aAfFgiIlnrtux] [name[=value] ...] or declare -p [-aAfFilnrtux] [name ...]"),
   ("typeset", "[-aAfFgiIlnrtux] name[=value] ... or typeset -p [-aAfFilnrtux] [name ...]"),
   ("local", "[option] name[=value] ..."), ("unalias", "[-a] name [name ...]"),
   ("alias", "[-p] [name[=value] ... ]"), ("hash", "[-lr] [-p pathname] [-dt] [name ...]")]

/-- Says how the command is to be called in the extended dialect. -/
def complainUse : Run Unit := do
  let name := (← environment).command?.getD []
  match usages.lookup (String.ofList name) with
  | some usage => complainLine (name ++ ": usage: ".toList ++ name ++ ' ' :: usage.toList)
  | none => return ()

def badOption {α : Type} (c : Char) : Run α := do
  if ← isExtended then
    complainOwn ('-' :: c :: ": invalid option".toList)
    complainUse
    throw (.failed 2)
  else fatal ("Illegal option -".toList ++ [c])

/-- Options and operands of a command. -/
structure Given where
  options : List (Char × Raw) := [] -- the options with their values, in order
  operands : List Raw := []

def Given.has (g : Given) (c : Char) : Bool := g.options.any (·.1 = c)

def Given.value? (g : Given) (c : Char) : Option Raw := (g.options.reverse.lookup c)

/-- Reads the letters of one argument; tells which option still needs its value. -/
def letters (flags valued : String) (read : List (Char × Raw)) :
    Raw → Run (List (Char × Raw) × Option Char)
  | [] => return (read, none)
  | c :: rest =>
    if valued.toList.contains c then
      return if rest = [] then (read, some c) else ((c, rest) :: read, none)
    else if flags.toList.contains c then letters flags valued ((c, []) :: read) rest
    else badOption c

/-- Tells options from operands. -/
def readGiven (flags valued : String) (read : List (Char × Raw)) : List Raw → Run Given
  | [] => return { options := read.reverse }
  | a :: rest =>
    match a with
    | ['-', '-'] => return { options := read.reverse, operands := rest }
    | '-' :: c :: t => do
      match ← letters flags valued read (c :: t) with
      | (read, none) => readGiven flags valued read rest
      | (read, some d) =>
        match rest with
        | v :: rest => readGiven flags valued ((d, v) :: read) rest
        | [] =>
          if ← isExtended then
            complainOwn ('-' :: d :: ": option requires an argument".toList)
            complainUse
            throw (.failed 2)
          else fatal ("No arg for -".toList ++ d :: " option".toList)
    | a => return { options := read.reverse, operands := a :: rest }

/-- Tells options from operands, or complains. -/
def given (flags valued : String) (arguments : List Raw) : Run Given := readGiven flags valued [] arguments

/-- The number that a text is in a shell's eyes, if it is one. -/
def number? (t : Raw) : Option Int :=
  let isSpace (c : Char) : Bool := c = ' ' || ('\t' ≤ c && c ≤ '\r')
  let t := ((t.dropWhile isSpace).reverse.dropWhile isSpace).reverse
  match t with
  | '+' :: rest => (Raw.nat? rest).map Int.ofNat
  | t => Raw.int? t

/-- The number that an argument is, which must not be below zero. -/
def number (t : Raw) : Run Nat := do
  match number? t with
  | some n => if 0 ≤ n ∧ n < 0x80000000 then return n.toNat else fatal ("Illegal number: ".toList ++ t)
  | none => fatal ("Illegal number: ".toList ++ t)

/-- Complains about a name that no variable can have. -/
def badName {α : Type} (name : Raw) : Run α :=
  fatal (name ++ ": bad variable name".toList)

/-- Writes a text; a shell that cannot says so, and the status tells. -/
def put (t : Raw) (status : Nat := 0) : Run Nat := do
  match ← writeText 1 t with
  | .ok () => return status
  | .error e =>
    if ← isExtended then complainOwn ("write error: ".toList ++ e.text.toList)
    else complain ((← environment).command?.getD [] ++ ": I/O error".toList)
    return status ||| 1

end Builtin

end LuaTree.Shell

import LuaTree.Shell.Complaint

/-!
# Options of the shell

The options that a shell is called with or sets later, by letter or by name. Reading them answers with the
arguments that follow.
-/

namespace LuaTree.Shell.Options

open Run

/-- The options of the plain dialect by name, with their letters. -/
def names : List (String × Option Char) :=
  [("errexit", some 'e'), ("noglob", some 'f'), ("ignoreeof", some 'I'), ("interactive", some 'i'),
   ("monitor", some 'm'), ("noexec", some 'n'), ("stdin", some 's'), ("xtrace", some 'x'),
   ("verbose", some 'v'), ("vi", some 'V'), ("emacs", some 'E'), ("noclobber", some 'C'),
   ("allexport", some 'a'), ("notify", some 'b'), ("nounset", some 'u'), ("privileged", some 'p'),
   ("nolog", none), ("debug", none)]

def extendedNames : List (String × Option Char) :=
  [("allexport", some 'a'), ("braceexpand", some 'B'), ("emacs", none), ("errexit", some 'e'),
   ("errtrace", some 'E'), ("functrace", some 'T'), ("hashall", some 'h'), ("histexpand", some 'H'),
   ("history", none), ("ignoreeof", none), ("interactive-comments", none), ("keyword", some 'k'),
   ("monitor", some 'm'), ("noclobber", some 'C'), ("noexec", some 'n'), ("noglob", some 'f'), ("nolog", none),
   ("notify", some 'b'), ("nounset", some 'u'), ("onecmd", some 't'), ("physical", some 'P'),
   ("pipefail", none), ("posix", none), ("privileged", some 'p'), ("verbose", some 'v'), ("vi", none),
   ("xtrace", some 'x')]

def known : Dialect → List (String × Option Char)
  | .plain => names
  | .extended => extendedNames

def shownLetters : Dialect → List Char
  | .plain => (names.filterMap Prod.snd).reverse
  | .extended => "abefhikmnptuvxBCEHPTcs".toList

/-- Sets or clears an option with a letter. -/
def setLetter (c : Char) (value : Bool) : Run Unit :=
  modifyEnvironment fun e =>
    let others := e.options.filter fun d =>
      d ≠ c && !(value && e.dialect = .plain && ((c = 'V' && d = 'E') || (c = 'E' && d = 'V')))
    { e with options := if value then c :: others else others }

def isOn (e : Environment) : String × Option Char → Bool
  | (_, some c) => e.options.contains c
  | (name, none) => e.named.contains name || name = "interactive-comments"

/-- Writes all options and whether they are set, or as commands that set them. -/
def list (asCommands : Bool) : Run Unit := do
  let e ← environment
  let isPlain := e.dialect = .plain
  if isPlain ∧ !asCommands then say "Current option settings\n".toList
  for o in known e.dialect do
    let name := o.1.toList
    let line := if asCommands then (if isOn e o then "set -o " else "set +o ").toList ++ name
      else
        name ++ (if isPlain then List.replicate (16 - name.length) ' '
          else List.replicate (15 - name.length) ' ' ++ ['\t'])
        ++ (if isOn e o then "on" else "off").toList
    say (line ++ ['\n'])

/-- Sets or clears an option with a name. -/
def setNamed (name : Raw) (value : Bool) : Run Unit := do
  let e ← environment
  let text := String.ofList name
  match (known e.dialect).lookup text with
  | some (some c) => setLetter c value
  | some none => modifyEnvironment fun e =>
      { e with named := if value then text :: e.named else e.named.filter (· ≠ text) }
  | none =>
    if e.dialect = .extended then
      complainOwn (name ++ ": invalid option name".toList)
      throw (.failed 2)
    else fatal ("Illegal option -o ".toList ++ name)

/-- Sets or clears options by letters; answers how many names are still to come. -/
def setLetters (atStart value : Bool) : Raw → Run (Nat × Bool)
  | [] => return (0, false)
  | c :: rest => do
    let e ← environment
    if c = 'o' then
      let (n, script) ← setLetters atStart value rest
      return (n + 1, script)
    else if c = 'c' ∧ atStart then
      let (n, _) ← setLetters atStart value rest
      return (n, true)
    else if c = 'l' ∧ atStart then setLetters atStart value rest
    else if (shownLetters e.dialect).contains c ∧ (e.dialect = .plain ∨ !"cs".toList.contains c ∨ atStart) then
      setLetter c value
      setLetters atStart value rest
    else if e.dialect = .extended then
      complainOwn ((if value then '-' else '+') :: c :: ": invalid option".toList)
      if !atStart then
        complainLine
          "set: usage: set [-abefhkmnptuvxBCEHPT] [-o option-name] [--] [-] [arg ...]".toList
      throw (.failed 2)
    else fatal ("Illegal option -".toList ++ [c])

def takeNames (value : Bool) : (n : Nat) → List Raw → Run (List Raw)
  | 0, rest => return rest
  | _ + 1, [] => do
    list (!value)
    return []
  | n + 1, name :: rest => do
    setNamed name value
    takeNames value n rest

/-- What options are followed by. -/
structure Rest where
  arguments : List Raw
  isScript : Bool := false -- whether the first of them is a script
  isExplicit : Bool := false -- whether the arguments are given, even if there are none

/-- Sets the options that arguments begin with. -/
def read (atStart : Bool) : (fuel : Nat) → (isScript : Bool) → List Raw → Run Rest
  | 0, isScript, arguments => return { arguments, isScript }
  | _ + 1, isScript, [] => return { arguments := [], isScript }
  | fuel + 1, isScript, a :: rest => do
    match a with
    | ['-'] =>
      if !atStart then
        setLetter 'x' false
        setLetter 'v' false
      return { arguments := rest, isScript }
    | ['-', '-'] => return { arguments := rest, isScript, isExplicit := true }
    | s :: letters =>
      if s = '-' ∨ s = '+' then
        let (n, script) ← setLetters atStart (s = '-') letters
        let rest ← takeNames (s = '-') n rest
        read atStart fuel (isScript || script) rest
      else return { arguments := a :: rest, isScript, isExplicit := true }
    | [] => return { arguments := a :: rest, isScript, isExplicit := true }

end LuaTree.Shell.Options

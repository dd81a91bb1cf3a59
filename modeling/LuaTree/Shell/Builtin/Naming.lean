import LuaTree.Shell.Builtin.Basic
import LuaTree.Shell.Program

/-!
# Commands about names

What a name stands for when it is called: a word of the language, another text, a function, a command of
the shell or a program.
-/

namespace LuaTree.Shell.Builtin

open Run

/-- The commands of the shell besides those whose mistakes end it. -/
def regularCommands (dialect : Dialect) : List String :=
  ["[", "alias", "bg", "cd", "command", "echo", "false", "fg", "getopts", "hash", "jobs", "kill", "local",
   "printf", "pwd", "read", "test", "true", "type", "ulimit", "umask", "unalias", "wait"]
    ++ (match dialect with
        | .plain => ["chdir"]
        | .extended => ["declare", "let", "mapfile", "readarray", "shopt", "source", "typeset", "builtin",
            "disown", "enable"])

def isCommand (dialect : Dialect) (name : String) : Bool :=
  specialCommands.contains name || (regularCommands dialect).contains name

/-- What a name stands for. -/
inductive Meaning where
  | keyword
  | alias (text : Raw)
  | function
  | builtin (special : Bool)
  | program (path : Raw) (before : Bool)

/-- What a name stands for, if anything. -/
def meaning? (name : Raw) : Run (Option Meaning) := do
  let e ← environment
  let text := String.ofList name
  if keywords.contains text ∨ (e.dialect = .extended ∧ extendedKeywords.contains text) then
    return some .keyword
  match e.aliases.lookup name with
  | some t => return some (.alias t)
  | none =>
    if (e.functions.get? name).isSome then return some .function
    if isCommand e.dialect text then return some (.builtin (specialCommands.contains text))
    return (← whereIs? name).map (.program · (e.found.contains name))

def Meaning.told (dialect : Dialect) (name : Raw) : Meaning → Raw
  | .keyword => name ++ " is a shell keyword".toList
  | .alias t =>
    if dialect = .extended then name ++ " is aliased to \x60".toList ++ t ++ ['\'']
    else name ++ " is an alias for ".toList ++ t
  | .function => name ++ (if dialect = .extended then " is a function" else " is a shell function").toList
  | .builtin special =>
    name ++ (if special ∧ dialect = .plain then " is a special shell builtin" else " is a shell builtin").toList
  | .program path before =>
    if before then
      if dialect = .extended then name ++ " is hashed (".toList ++ path ++ [')']
      else name ++ " is a tracked alias for ".toList ++ path
    else name ++ " is ".toList ++ path

def Meaning.named (name : Raw) : Meaning → Raw
  | .alias t => "alias ".toList ++ name ++ '=' :: Quote.listed t
  | .program path _ => path
  | _ => name

def Meaning.kind : Meaning → String
  | .keyword => "keyword"
  | .alias _ => "alias"
  | .function => "function"
  | .builtin _ => "builtin"
  | .program _ _ => "file"

/-- Says what a name stands for; answers with the status. -/
def tell (brief : Bool) (name : Raw) : Run Nat := do
  let dialect := (← environment).dialect
  match ← meaning? name with
  | some m =>
    match m, dialect with
    | .program _ false, .plain =>
      if !name.contains '/' then modifyEnvironment fun e => { e with found := name :: e.found }
    | _, _ => pure ()
    put ((if brief then m.named name else m.told dialect name) ++ ['\n'])
  | none =>
    if dialect = .extended then
      if !brief then complainOwn (name ++ ": not found".toList)
      return 1
    if !brief then say (name ++ ": not found\n".toList)
    return 127

/-- `type`: says what names stand for. -/
def describe : Builtin := fun _ arguments => do
  let extended ← isExtended
  let g ← if extended then given "afptP" "" arguments else pure { operands := arguments }
  let mut status := 0
  for name in g.operands do
    if g.has 't' then
      match ← meaning? name with
      | some m => status := status ||| (← put (m.kind.toList ++ ['\n']))
      | none => status := 1
    else if g.has 'p' ∨ g.has 'P' then
      match ← whereIs? name with
      | some p => status := status ||| (← put (p ++ ['\n']))
      | none => status := 1
    else status := status ||| (← tell false name)
  return status

/-- `alias`: makes words stand for other texts, or lists what they stand for. -/
def setAliases : Builtin := fun _ arguments => do
  let e ← environment
  let line (p : Raw × Raw) : Raw :=
    (if e.dialect = .extended then "alias ".toList else []) ++ p.1 ++ '=' :: Quote.listed p.2 ++ ['\n']
  let row (p : Raw × Raw) : Nat := Environment.tableRow p.1
  let before (p q : Raw × Raw) : Bool :=
    if e.dialect = .extended then !decide (q.1 < p.1) else row p ≤ row q
  let all := e.aliases.reverse.mergeSort before
  let arguments := if e.dialect = .extended ∧ arguments.head? = some ['-', 'p'] then arguments.drop 1 else arguments
  if arguments = [] then return ← put (all.flatMap line)
  let mut status := 0
  for a in arguments do
    let name := a.take 1 ++ (a.drop 1).takeWhile (· ≠ '=')
    if name.length < a.length then
      let value := a.drop (name.length + 1)
      modifyEnvironment fun e =>
        { e with aliases :=
            if e.aliases.any (·.1 = name) then
              e.aliases.map fun p => if p.1 = name then (name, value) else p
            else (name, value) :: e.aliases }
    else
      match (← environment).aliases.lookup name with
      | some value => status := status ||| (← put (line (name, value)))
      | none =>
        if e.dialect = .extended then complainOwn (name ++ ": not found".toList)
        else complainLine ("alias: ".toList ++ name ++ " not found".toList)
        status := 1
  return status

/-- `unalias`: makes words stand for nothing else. -/
def removeAliases : Builtin := fun _ arguments => do
  let g ← given "a" "" arguments
  if g.has 'a' then
    modifyEnvironment fun e => { e with aliases := [] }
    return 0
  let mut status := 0
  for name in g.operands do
    let e ← environment
    if e.aliases.any (·.1 = name) then
      modifyEnvironment fun e => { e with aliases := e.aliases.filter (·.1 ≠ name) }
    else
      if e.dialect = .extended then complainOwn (name ++ ": not found".toList)
      else complainLine ("unalias: ".toList ++ name ++ " not found".toList)
      status := 1
  return status

/-- `hash`: lists the programs that have been found, or forgets them. -/
def remembered : Builtin := fun _ arguments => do
  let g ← given "r" "" arguments
  let e ← environment
  if g.has 'r' then
    modifyEnvironment fun e => { e with found := [] }
    return 0
  if g.operands = [] then
    let names := e.found.reverse.mergeSort fun a b => Environment.tableRow a ≤ Environment.tableRow b
    let mut text := []
    for name in names do
      text := text ++ ((← whereIs? name).map (· ++ ['\n'])).getD []
    return ← put text
  let mut status := 0
  for name in g.operands do
    let isKnown := isCommand e.dialect (String.ofList name) || (e.functions.get? name).isSome
    if isKnown ∨ name.contains '/' then pure ()
    else if (← whereIs? name).isSome then
      modifyEnvironment fun e => { e with found := name :: e.found.filter (· ≠ name) }
    else
      complainOwn (name ++ ": not found".toList)
      status := 1
  return status

/-- `command` with nothing that it could call: says what a name stands for. -/
def command : Builtin := fun _ arguments => do
  let g ← given "pvV" "" arguments
  match g.operands with
  | [] => return 0
  | name :: rest =>
    if g.has 'V' ∨ g.has 'v' then
      let brief := !g.has 'V'
      if ← isExtended then
        let mut status := 1
        for name in name :: rest do
          if (← tell brief name) = 0 then status := 0
        return status
      else tell brief name
    else return 0

end LuaTree.Shell.Builtin

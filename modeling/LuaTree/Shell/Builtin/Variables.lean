import LuaTree.Shell.Builtin.Basic
import LuaTree.Shell.Quote

/-!
# Commands that set variables, options and arguments
-/

namespace LuaTree.Shell.Builtin

open Run

/-- The name that a setting such as `x=1` begins with, and the value behind it. -/
def settingOf (a : Raw) : Raw × Option Raw :=
  let name := a.takeWhile (· ≠ '=')
  (name, if name.length < a.length then some (a.drop (name.length + 1)) else none)

/-- Complains unless a text can be the name of a variable. -/
def checkName (name : Raw) (whole : Raw) : Run Bool := do
  if Raw.isName name then return true
  if ← isExtended then
    complainOwn ('\x60' :: whole ++ "': not a valid identifier".toList)
    return false
  else badName name

def listing (command : String) (kind : Variable → Bool) : Run Raw := do
  let e ← environment
  let chosen := (e.bindings.entries.filter fun p => kind p.2).mergeSort fun a b => !decide (b.1 < a.1)
  return chosen.flatMap fun (x, v) =>
    match e.dialect with
    | .plain =>
      (if command = "" then [] else command.toList ++ [' ']) ++ x
        ++ (if v.isSet then '=' :: Quote.listed v.value else []) ++ ['\n']
    | .extended => (if command = "" then v.setting x else v.declared x) ++ ['\n']

/-- Sets variables, or changes those that are only named. -/
def declare (change : Variable → Variable) (settings : List Raw) : Run Nat := do
  let mut status := 0
  for a in settings do
    let (name, value?) := settingOf a
    if ← checkName name a then
      match value? with
      | some value => setVariable name value
      | none => pure ()
      rebind name change
    else status := 1
  return status

/-- `export`: makes variables visible for programs. -/
def exportVariables : Builtin := fun _ arguments => do
  let g ← given "pn" "" arguments
  if g.has 'p' ∨ g.operands = [] then put (← listing "export" (·.exported))
  else declare (fun v => { v with exported := !g.has 'n' }) g.operands

/-- `readonly`: makes variables unchangeable. -/
def fixVariables : Builtin := fun _ arguments => do
  let g ← given (if ← isExtended then "paAf" else "p") "" arguments
  if g.has 'p' ∨ g.operands = [] then put (← listing "readonly" (·.isFixed))
  else declare (fun v => { v with isFixed := true }) g.operands

/-- Makes a variable the function's own; it keeps its value for now. -/
def makeLocal (name : Raw) : Run Unit :=
  modifyEnvironment fun e =>
    if e.locals.any (·.1 = name) then e
    else { e with locals := (name, e.bindings.get? name) :: e.locals }

/-- Whether a variable is a function's own. -/
def isLocal (e : Environment) (name : Raw) : Bool := e.locals.any (·.1 = name)

/-- What `declare` makes of a variable, given the letters that are set and those that are taken away. -/
def gifted (set cleared : Raw) (v : Variable) : Variable :=
  let after (c : Char) (before : Bool) : Bool := (before || set.contains c) && !cleared.contains c
  { v with
    isSum := after 'i' v.isSum
    refers := after 'n' v.refers
    exported := after 'x' v.exported
    byName := v.byName || set.contains 'A'
    recased? :=
      if set.contains 'u' then some true
      else if set.contains 'l' then some false
      else if cleared.contains 'u' || cleared.contains 'l' then none
      else v.recased?
    list? :=
      if set.contains 'a' || set.contains 'A' then
        some (v.list?.getD (if v.isSet then [(['0'], v.value)] else []))
      else v.list? }

/-- `declare`: gives variables properties. -/
def properties : Builtin := fun _ arguments => do
  let isOption (a : Raw) : Bool := (a.head? = some '-' || a.head? = some '+') && 1 < a.length
  let options := (arguments.takeWhile isOption).takeWhile (· ≠ "--".toList)
  let rest := arguments.drop options.length
  let settings := if rest.head? = some "--".toList then rest.drop 1 else rest
  let lettersOf (sign : Char) : Raw := (options.filter (·.head? = some sign)).flatMap (List.drop 1)
  let set := lettersOf '-'
  let cleared := lettersOf '+'
  match (set ++ cleared).find? (!"aAfFgiIlnrtuxp".toList.contains ·) with
  | some c => badOption c
  | none => pure ()
  let e ← environment
  if set.contains 'f' ∨ set.contains 'F' then
    let names := (e.functions.keys.mergeSort fun a b => !decide (b < a))
    if settings = [] then return ← put (names.flatMap fun x => "declare -f ".toList ++ x ++ ['\n'])
    let mut status := 0
    for x in settings do
      if names.contains x then discard (put (x ++ ['\n'])) else status := 1
    return status
  let mut status := 0
  if set.contains 'p' ∧ settings ≠ [] then
    for x in settings do
      match ← binding? x with
      | some v => discard (put (v.declared x ++ ['\n']))
      | none =>
        complainOwn (x ++ ": not found".toList)
        status := 1
    return status
  if settings = [] then
    let isMeant (v : Variable) : Bool := set.all fun c => c = 'p' || v.letters.contains c
    return ← put (← listing (if options = [] then "" else "declare") fun v => (v.isSet || options ≠ []) && isMeant v)
  let isOwn := !e.calls.isEmpty && !set.contains 'g'
  for a in settings do
    let (name, value?) := settingOf a
    let adds := value?.isSome && name.getLast? = some '+'
    let name := if adds then name.dropLast else name
    if ← checkName name a then
      if isOwn ∧ !isLocal (← environment) name then
        makeLocal name
        rebind name fun v => { value := [], isSet := false, exported := v.exported }
      rebind name (gifted set cleared)
      match value? with
      | some value =>
        let v := (← binding? name).getD { value := [] }
        let old := if adds then v.value else []
        let value ←
          if v.isSum then do
            let m ← if adds then Arithmetic.evaluate old else pure 0
            pure (Raw.ofInt (m + (← Arithmetic.evaluate value)))
          else pure (old ++ value)
        if v.refers then rebind name fun v => { v with value, isSet := true }
        else if v.list?.isSome then setPlace name ['0'] value
        else setVariable name value
      | none => pure ()
      rebind name fun v => { v with isFixed := v.isFixed || set.contains 'r' }
    else status := 1
  return status

/-- `local`: makes variables a function's own. -/
def localVariables : Builtin := fun run arguments => do
  let e ← environment
  match e.dialect with
  | .extended =>
    if e.calls.isEmpty then
      complainOwn "can only be used in a function".toList
      return 1
    properties run arguments
  | .plain =>
    if e.calls.isEmpty then fatal "not in a function".toList
    for a in arguments do
      let (name, value?) := settingOf a
      if a ≠ ['-'] then
        if !Raw.isName name then
          -- the name of the command is not told here
          modifyEnvironment fun e => { e with command? := none }
          badName name
        makeLocal name
        match value? with
        | some value => setVariable name value
        | none => rebind name id
    return 0

def forget (name : Raw) : Run Unit := do
  modifyEnvironment fun e => { e with bindings := e.bindings.erase name }

/-- `unset`: removes variables or functions. -/
def unset : Builtin := fun _ arguments => do
  let g ← given "vf" "" arguments
  let extended ← isExtended
  let mut status := 0
  for a in g.operands do
    let e ← environment
    if g.options.getLast?.any (·.1 = 'f') then
      modifyEnvironment fun e => { e with functions := e.functions.erase a }
    else
      let name := a.takeWhile (· ≠ '[')
      if name.length < a.length ∧ extended then
        let text := (a.drop (name.length + 1)).dropLast
        let isWord := (← binding? name).any Variable.byName
        let place ← if isWord then pure text else Raw.ofInt <$> Arithmetic.evaluate text
        rebind name fun v =>
          let list? := v.list?.map fun l => l.filter (·.1 ≠ place)
          { v with list?, value := ((list?.getD []).lookup ['0']).getD [] }
      else if ← checkName a a then
        if (e.bindings.get? a).any Variable.isFixed then
          if extended then
            complainOwn (a ++ ": cannot unset: readonly variable".toList)
            status := 1
          else fatal (a ++ ": is read only".toList)
        else if extended ∧ (e.bindings.get? a).isNone then
          modifyEnvironment fun e => { e with functions := e.functions.erase a }
        else forget a
      else status := 1
  return status

/-- `set`: sets options and arguments, or lists the variables. -/
def set : Builtin := fun _ arguments => do
  if arguments = [] then put (← listing "" (·.isSet))
  else
    let rest ← Options.read false (arguments.length + 1) false arguments
    if rest.arguments ≠ [] ∨ rest.isExplicit then
      modifyEnvironment fun e => { e with arguments := rest.arguments, optionIndex := 1, optionPlace := 0 }
    return 0

/-- `shift`: drops arguments. -/
def shift : Builtin := fun _ arguments => do
  let e ← environment
  let n ← match arguments with
    | [] => pure 1
    | a :: _ => do
      if e.dialect = .extended ∧ (number? a).isNone then
        complainOwn (a ++ ": numeric argument required".toList)
        throw (.failed 1)
      number a
  if e.arguments.length < n then
    if e.dialect = .extended then return 1
    fatal "can't shift that many".toList
  modifyEnvironment fun e =>
    { e with arguments := e.arguments.drop n, optionIndex := 1, optionPlace := 0 }
  return 0

/-- `let`: works out sums. -/
def sums : Builtin := fun _ arguments => do
  if arguments = [] then
    complainOwn "expression expected".toList
    return 1
  let mut last : Int := 0
  for a in arguments do
    last ← Arithmetic.evaluate a
  return if last = 0 then 1 else 0

end LuaTree.Shell.Builtin

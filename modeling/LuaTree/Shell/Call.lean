import LuaTree.Shell.Builtin.Table

/-!
# Calling commands by name

A simple command is worked out from left to right: its words, its redirections, what its variables are set
to, and then it is called. What is in front of a special command of the shell stays; what is in front of any
other command is the command's own.
-/

namespace LuaTree.Shell

open Run

/-! ## Words -/

/-- A command that has been worked out. -/
structure Called where
  words : List Raw := []
  -- what is called, behind `command` and its options; nothing while that is not known
  target? : Option (Raw × List Raw) := none
  isPlain : Bool := false -- whether `command` stands in front
  usualPath : Bool := false -- whether programs are searched for in the usual places

/-- What words call, and whether that is certain. -/
def calledBy (words : List Raw) : Called :=
  match words with
  | [] => {}
  | name :: rest =>
    if name ≠ "command".toList then { words, target? := some (name, rest) }
    else
      let options := rest.takeWhile fun a =>
        a.head? = some '-' && 1 < a.length && (a.drop 1).all (· = 'p')
      let rest := rest.drop options.length
      match rest with
      | ['-', '-'] :: target :: more =>
        { words, target? := some (target, more), isPlain := true, usualPath := !options.isEmpty }
      | ('-' :: _ :: _) :: _ => { words, target? := some (name, words.drop 1) }
      | target :: more =>
        { words, target? := some (target, more), isPlain := true, usualPath := !options.isEmpty }
      | [] => { words }

/-- The commands whose arguments may be settings of variables. -/
def settingCommands : List String := ["alias", "declare", "export", "local", "readonly", "typeset"]

def isSetting (w : Word) : Bool :=
  match w with
  | .text false t :: _ =>
    let name := t.takeWhile (· ≠ '=')
    name.length < t.length && Raw.isName name
  | _ => false

/-- Works out words from left to right. -/
def workedOut (run : Runner) : List Word → List Raw → Run (List Raw)
  | [], read => return read
  | w :: ws, read => do
    let e ← environment
    let takesSettings : Bool :=
      match (calledBy read).target? with
      | some (name, _) =>
        settingCommands.contains (String.ofList name) && (e.functions.get? name).isNone
      | none => false
    if takesSettings ∧ isSetting w then
      let t ← Expand.assigned (innerOf run) w
      workedOut run ws (read ++ [t])
    else
      let ts ← Expand.fields (innerOf run) [w]
      workedOut run ws (read ++ ts)

/-! ## Settings -/

def listValues (run : Runner) (ws : List Word) : Run (List (Option Raw × Raw)) := do
  let mut all := #[]
  for w in ws do
    match w with
    | .text false ('[' :: t) :: rest =>
      let place := t.takeWhile (· ≠ ']')
      let after := t.drop place.length
      if "]=".toList.isPrefixOf after then
        let value ← Expand.assigned (innerOf run) (.text false (after.drop 2) :: rest)
        all := all.push (some place, value)
      else
        for t in ← Expand.fields (innerOf run) [w] do
          all := all.push (none, t)
    | w =>
      for t in ← Expand.fields (innerOf run) [w] do
        all := all.push (none, t)
  return all.toList

/-- The key of a place in a variable's list. -/
def placeKey (run : Runner) (name place : Raw) : Run Raw := do
  let text ← match Lexer.wordOf .extended .operand 1 place with
    | .ok w => Expand.text (innerOf run) w
    | .error _ => pure place
  if (← binding? name).any Variable.byName then return text
  return Raw.ofInt (← Arithmetic.evaluate text)

/-- Sets a variable as an assignment says; answers with how that is shown. -/
def assign (run : Runner) (a : Assignment) : Run Raw := do
  match a.value with
  | .text w =>
    let t ← Expand.assigned (innerOf run) w
    let v? ← binding? a.name
    match a.index? with
    | some place =>
      let key ← placeKey run a.name place
      let old := if a.adds then (((v?.bind Variable.list?).getD []).lookup key).getD [] else []
      setPlace a.name key (old ++ t)
    | none =>
      let isSum := v?.any Variable.isSum
      let old := if a.adds then ((v?.map Variable.value).getD []) else []
      let t ←
        if !isSum then pure (old ++ t)
        else do
          let n ← Arithmetic.evaluate t
          let m ← if a.adds then Arithmetic.evaluate old else pure 0
          pure (Raw.ofInt (m + n))
      setVariable a.name t
    return a.name ++ (if a.adds then "+=" else "=").toList ++ t
  | .list ws =>
    checkFixed a.name
    let values ← listValues run ws
    let old := (← binding? a.name).getD { value := [], isSet := false }
    let begun := if a.adds then old.list?.getD (if old.isSet then [(['0'], old.value)] else []) else []
    rebind a.name fun v => { v with list? := some begun, isSet := true, value := (begun.lookup ['0']).getD [] }
    let mut next := ((begun.getLast?).bind fun p => Raw.nat? p.1).elim 0 (· + 1)
    for (place?, t) in values do
      let key ← match place? with
        | some place => placeKey run a.name place
        | none => pure (Raw.ofNat next)
      setPlace a.name key t
      next := ((Raw.nat? key).getD next) + 1
    return a.name ++ "=()".toList

/-! ## Calls -/

/-- How many functions can be called from within each other in the plain dialect. -/
def deepestCalls : Nat := 1000

def callFunction (run : Runner) (name : Raw) (body : Command) (arguments : List Raw) : Run Nat := do
  let e ← environment
  if e.dialect = .plain ∧ deepestCalls ≤ e.calls.length then
    fatal ("Maximum function recursion depth (".toList ++ Raw.ofNat deepestCalls ++ ") reached".toList)
  let restored (old new : Environment) : Environment :=
    let bindings := new.locals.foldl (fun vs (x, v?) =>
      match v? with
      | some v => vs.insert x v
      | none => vs.erase x) new.bindings
    { new with
      arguments := old.arguments, locals := old.locals, loops := old.loops, calls := old.calls, bindings
      optionIndex := old.optionIndex, optionPlace := old.optionPlace }
  let ended ← restoring restored do
    modifyEnvironment fun e =>
      { e with arguments, locals := [], loops := 0, calls := name :: e.calls, optionIndex := 1, optionPlace := 0 }
    attempt (run body)
  match ended with
  | .ok () => return (← environment).status
  | .error (.leave n) => return n
  | .error e => throw e

/-- Whether something is to be done for signals or at the end, so that the shell cannot give its place. -/
def Environment.hasTraps (e : Environment) : Bool := e.traps.entries.any fun p => p.2 ≠ []

/-- Calls a program; a process that has nothing else to do gives its place to it. -/
def callProgram (run : Runner) (final redirected : Bool) (c : Called) (name : Raw) (arguments : List Raw) :
    Run Nat := do
  let m ← get
  let e := m.environment
  let path := if c.usualPath then Exec.searchPath else e.path
  let isFound := (Exec.findAnyhow m.store e.cwd path name [] (scriptTest e.dialect)).toOption.isSome
  if isFound ∧ !name.contains '/' ∧ !e.found.contains name then
    modifyEnvironment fun e => { e with found := name :: e.found }
  if final ∧ isFound ∧ !e.hasTraps then
    if redirected then modifyEnvironment fun e => { e with kept := e.kept.drop 1 }
    let status ← program run true path name arguments
    throw (.exit status)
  program run false path name arguments

/-- Calls what a name stands for; answers with its status. -/
def callTarget (run : Runner) (final redirected : Bool) (c : Called) (name : Raw) (arguments : List Raw) :
    Run Nat := do
  let e ← environment
  let text := String.ofList name
  let isSpecial := specialCommands.contains text && text ≠ "local" && e.dialect = .plain
  let function? := if c.isPlain ∨ isSpecial then none else e.functions.get? name
  match function?, Builtin.find? e.dialect name with
  | some body, _ => callFunction run name body arguments
  | none, some b =>
    let mayEnd := specialCommands.contains text && e.dialect = .plain && !c.isPlain
    Builtin.call run mayEnd name b arguments
  | none, none => callProgram run final redirected c name arguments

/-- Shows on a channel what is about to be run, if that is asked for. -/
def trace (run : Runner) (errors? : Option Channel) (settings words : List Raw) : Run Unit := do
  let e ← environment
  if !e.options.contains 'x' then return ()
  let sign ← match Lexer.wordOf e.dialect .document e.line ((← varValue? "PS4".toList).getD []) with
    | .ok w => Expand.text (innerOf run) w
    | .error _ => pure []
  let lines : List (List Raw) :=
    match e.dialect with
    | .plain => [settings ++ words]
    | .extended =>
      settings.map (fun t => [t]) ++ (if words = [] then [] else [words.map Quote.traced])
  let text := lines.flatMap fun ts => sign ++ [' '].intercalate ts ++ ['\n']
  match errors? with
  | some c => withChannel 2 c (discard (writeText 2 text))
  | none => return ()

def changedBy (rs : List Redirection) : List Nat :=
  rs.flatMap fun r =>
    match r.action with
    | .withErrors _ => [1, 2]
    | .same => if r.descriptor = 1 then [1, 2] else [r.descriptor]
    | _ => [r.descriptor]

/-- Runs a simple command; answers with its status. -/
def simple (run : Runner) (final : Bool) (assignments : List Assignment) (words : List Word)
    (redirections : List Redirection) : Run Nat := do
  modifyEnvironment fun e => { e with substituted := 0 }
  let words ← workedOut run words []
  let e ← environment
  let c := calledBy words
  let own := c.target?.map fun p => String.ofList p.1
  let isSpecial := !c.isPlain && own.any specialCommands.contains && e.dialect = .plain && own ≠ some "local"
  let errors? := e.descriptors.get? 2
  let listings := if own.any settingCommands.contains then assignments.filter fun a =>
      match a.value with
      | .list _ => true
      | .text _ => false
    else []
  let assignments := if listings.isEmpty then assignments else []
  let call : Run Nat := do
    if !(← redirectAll run redirections) then
      let status ← failedRedirection
      if isSpecial then throw (.failed status)
      return status
    let setAll (exported : Bool) : Run (List Raw) := assignments.mapM fun a => do
      let shown ← assign run a
      if exported then rebind a.name fun v => { v with exported := true }
      return shown
    match c.target? with
    | none =>
      let shown ← setAll false
      if shown ≠ [] ∨ words ≠ [] then trace run errors? shown words
      if words ≠ [] then return 0
      return (← environment).substituted
    | some (name, arguments) =>
      if isSpecial then
        let shown ← setAll (own = some "exec" && !arguments.isEmpty)
        trace run errors? shown words
        callTarget run final (!redirections.isEmpty) c name arguments
      else
        let before := assignments.map fun a => (a.name, e.bindings.get? a.name)
        let restored (_ new : Environment) : Environment :=
          { new with bindings := before.reverse.foldl (fun vs (x, v?) =>
              match v? with
              | some v => vs.insert x v
              | none => vs.erase x) new.bindings }
        let body : Run Nat := do
          let shown ← setAll true
          trace run errors? shown words
          let setLists : Run Unit := do
            for a in listings do
              discard (assign run a)
          let named := arguments ++ listings.map (·.name)
          -- what is to be fixed is set before
          let isLate := own ≠ some "readonly" && !(arguments.any fun a => a.head? = some '-' && a.contains 'r')
          if !isLate then setLists
          let status ← callTarget run final (!redirections.isEmpty) c name named
          if isLate then setLists
          return status
        if before.isEmpty then body else restoring restored body
  let status ← if redirections.isEmpty ∨ own = some "exec" then call else keeping (changedBy redirections) call
  modifyEnvironment fun e => { e with lastWord := words.getLastD [] }
  return status

end LuaTree.Shell

import LuaTree.Shell.Attribute
import LuaTree.Shell.Descriptor
import LuaTree.Shell.Fault

/-!
# Complaints of the shell

What the shell itself says is wrong, on the standard error: under its name and the line, and in the plain
dialect under the name of the command of the shell that is being run as well.
-/

namespace LuaTree.Shell.Run

def heading : Run Raw := do
  let e ← environment
  return match e.dialect with
    | .plain =>
      e.name ++ ": ".toList ++ Raw.ofNat e.line ++ ": ".toList
        ++ (match e.command? with
            | some name => name ++ ": ".toList
            | none => [])
    | .extended => e.name ++ ": line ".toList ++ Raw.ofNat e.line ++ ": ".toList

/-- Says that something is wrong. -/
def complain (message : Raw) : Run Unit := do complainLine ((← heading) ++ message)

/-- Says that something is wrong, in words that are fixed. -/
def complainText (message : String) : Run Unit := complain message.toList

/-- Says what is wrong with a command of the shell, whose name comes first in both dialects. -/
def complainOwn (message : Raw) : Run Unit := do
  let e ← environment
  match e.dialect, e.command? with
  | .extended, some name => complain (name ++ ": ".toList ++ message)
  | _, _ => complain message

/-- Says what is wrong and ends the shell. -/
def fatal {α : Type} (message : Raw) (status : Nat := 2) : Run α := do
  complain message
  throw (.failed status)

/-- Says what is wrong and gives up what is being done: the shell, or in the extended dialect the
statement. -/
def giveUp {α : Type} (message : Raw) : Run α := do
  complain message
  if ← isExtended then
    setStatus 1
    throw .givenUp
  throw (.failed 2)

/-- Says what is wrong with a script, and ends the shell. -/
def mistaken {α : Type} (mistake : Mistake) : Run α := do
  modifyEnvironment fun e => { e with line := mistake.line }
  for line in mistake.lines (← environment).dialect do
    complain line
  throw (.failed 2)

/-- What the extended dialect tells under the name of a variable that is worked out whenever it is asked
for. -/
def told? (m : Machine) (name : Raw) : Option Variable :=
  let e := m.environment
  let number (n : Nat) : Option Variable := some { value := Raw.ofNat n }
  match String.ofList name with
  | "LINENO" => number e.line
  | "BASHPID" => number e.process
  | "SECONDS" => number (m.clock / 1000000)
  | "EPOCHSECONDS" => number m.now.toNat
  | "RANDOM" => number ((m.clock * 48271 + e.process) % 32768)
  | "PIPESTATUS" => some (.ofList (e.statuses.map Raw.ofNat))
  | "FUNCNAME" => if e.calls.isEmpty then none else some (.ofList (e.calls ++ ["main".toList]))
  | "BASH_SOURCE" => some (.ofList (List.replicate (e.calls.length + 1) e.name))
  | "_" => some { value := e.lastWord }
  | _ => none

/-- The variable that is meant by the name of one that may stand for another. -/
def aimed (e : Environment) (name : Raw) : Raw :=
  match e.bindings.get? name with
  | some v => if v.refers && v.value ≠ [] then v.value else name
  | none => name

def binding? (name : Raw) : Run (Option Variable) := do
  let m ← get
  let name := aimed m.environment name
  match m.environment.bindings.get? name, m.environment.dialect with
  | none, .extended => return told? m name
  | v?, _ => return v?

def varValue? (name : Raw) : Run (Option Raw) :=
  return (← binding? name).bind fun v => if v.isSet then some v.value else none

/-- Changes the binding of a variable, or makes one. -/
def rebind (name : Raw) (f : Variable → Variable) : Run Unit :=
  modifyEnvironment fun e =>
    let old := (e.bindings.get? name).getD { value := [], isSet := false }
    let changed := f old
    -- programs that were found before the search path changes are searched for anew
    let found := if name = "PATH".toList then [] else e.found
    { e with found, bindings := e.bindings.insert name changed }

/-- Ends the shell if a variable cannot be changed. -/
def checkFixed (name : Raw) : Run Unit := do
  if (← binding? name).any Variable.isFixed then
    if ← isExtended then
      complain (name ++ ": readonly variable".toList)
      setStatus 1
      throw .givenUp
    else fatal (name ++ ": is read only".toList)

/-- The row in which a list keeps what stands under a word. -/
def rowOf (place : Raw) : Nat :=
  place.foldl (fun n c => (n * 16777619 % 0x100000000) ^^^ c.toNat) 2166136261 % 1024

def placed (list : List (Raw × Raw)) (byName : Bool) (place value : Raw) : List (Raw × Raw) :=
  if list.any (·.1 = place) then list.map fun p => if p.1 = place then (place, value) else p
  else
    let key (t : Raw) : Nat := if byName then rowOf t else (Raw.nat? t).getD 0
    let isBefore (p : Raw × Raw) : Bool := key p.1 < key place
    list.takeWhile isBefore ++ (place, value) :: list.dropWhile isBefore

/-- Sets a variable; one that programs get to see stays so. -/
def setVariable (name value : Raw) : Run Unit := do
  let name := aimed (← environment) name
  checkFixed name
  let all := (← environment).options.contains 'a'
  rebind name fun v =>
    let value := v.recased value
    { v with
      value, isSet := true, exported := v.exported || all
      list? := v.list?.map fun l => placed l v.byName ['0'] value }
  -- where options are looked for begins anew
  if name = "OPTIND".toList then
    modifyEnvironment fun e => { e with optionIndex := max 1 ((Raw.nat? value).getD 1), optionPlace := 0 }

def setPlace (name place value : Raw) : Run Unit := do
  let name := aimed (← environment) name
  checkFixed name
  rebind name fun v =>
    let value := v.recased value
    let old := v.list?.getD (if v.isSet then [(['0'], v.value)] else [])
    let list := placed old v.byName place value
    { v with list? := some list, isSet := true, value := (list.lookup ['0']).getD [] }

end LuaTree.Shell.Run

import LuaTree.Shell.Builtin.Reading
import LuaTree.Shell.Condition

/-!
# Commands that write texts and ask questions
-/

namespace LuaTree.Shell.Builtin

open Run

def manner : Run Format.Manner := return if ← isExtended then .extended else .shell

/-- `echo`: writes its arguments. -/
def echo : Builtin := fun _ arguments => do
  if ← isExtended then put (Format.plainEcho .extended arguments)
  else put (Format.echo arguments)

/-- Writes arguments as a format asks for, or sets a variable to that. -/
def formatted (name? : Option Raw) (format : Raw) (arguments : List Raw) : Run Nat := do
  let m ← manner
  let (text, complaints, _) := Format.printf m Quote.escaped format arguments
  for c in complaints do
    complainOwn (c.text m Quote.shown)
  let failed := if complaints = [] then 0 else if m = .extended ∨ complaints.all (!·.isGrave) then 1 else 2
  match name? with
  | some name =>
    setVariable name text
    return failed
  | none => put text failed

/-- `printf`: writes its arguments as a format asks for. -/
def printf : Builtin := fun _ arguments => do
  let extended ← isExtended
  let g ← given "" (if extended then "v" else "") arguments
  match g.operands with
  | format :: rest => formatted (g.value? 'v') format rest
  | [] =>
    if extended then
      complainUse
      return 2
    else fatal "usage: printf format [arg ...]".toList

def world : Run Condition.World := do
  let m ← get
  let e := m.environment
  return {
    store := m.store, cwd := e.cwd, timeOf := m.timeOf
    isSet := fun x => (e.bindings.get? x).any (·.isSet)
    hasOption := fun o =>
      ((Options.known e.dialect).find? fun p => p.1.toList = o).any (Options.isOn e) }

/-- `test`: asks about its arguments. -/
def test (isBracket : Bool) : Builtin := fun _ arguments => do
  let m ← manner
  if isBracket ∧ arguments.getLast? ≠ some [']'] then
    if m = .extended then
      complainOwn "missing \x60]'".toList
      return 2
    else fatal "missing ]".toList
  let arguments := if isBracket then arguments.dropLast else arguments
  match Condition.holds m (← world) arguments with
  | .ok holds => return if holds then 0 else 1
  | .error fault =>
    complainOwn (fault.text m Quote.shown)
    return 2

end LuaTree.Shell.Builtin

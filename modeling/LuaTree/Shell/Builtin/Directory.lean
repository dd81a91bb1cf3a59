import LuaTree.Shell.Builtin.Basic
import LuaTree.Shell.Mode

/-!
# Commands about the working directory and the mask

A shell keeps the path by which it came to its working directory, so that the way back through a link is
the way it came. `logical` is the path that results from following another one from there.
-/

namespace LuaTree.Shell.Builtin

open Run

/-- The path that results from following another one, in which going up takes back the last step. -/
def logical (here target : Raw) : Raw :=
  let isAbsolute := target.head? = some '/'
  let isDouble (t : Raw) : Bool := t.take 2 = "//".toList && (t.drop 2).head? ≠ some '/'
  let origin : List Raw := if isAbsolute then [] else (here.splitOn '/').filter (· ≠ [])
  let steps := (target.splitOn '/').foldl (fun way part =>
    if part = [] ∨ part = ['.'] then way
    else if part = ['.', '.'] then way.drop 1
    else part :: way) origin.reverse
  (if isDouble (if isAbsolute then target else here) then "//".toList else ['/'])
    ++ ['/'].intercalate steps.reverse

/-- Makes a place the working directory, if it can be one. -/
def enter (path : Raw) : Run (Except IoError Location) := do
  let m ← get
  match m.store.stat? m.environment.cwd (Raw.path path) with
  | .error e => return .error e
  | .ok (loc, e) =>
    if !e.isDir then return .error (.os .notDirectory)
    if !m.store.allows e .run then return .error (.os .denied)
    modifyEnvironment fun e => { e with cwd := loc }
    return .ok loc

/-- Remembers that the working directory has changed. -/
def settle (path : Raw) : Run Unit := do
  let e ← environment
  setVariable "OLDPWD".toList (Raw.ofPath e.here)
  setVariable "PWD".toList path
  for x in ["OLDPWD", "PWD"] do
    rebind x.toList fun v => { v with exported := true }
  modifyEnvironment fun e => { e with here := Raw.path path }

/-- Goes to a directory; answers with its path. -/
def goTo (physical : Bool) (target : Raw) : Run (Except IoError Raw) := do
  let e ← environment
  let path := if physical ∨ e.here = [] then target else logical (Raw.ofPath e.here) target
  match ← enter path with
  | .error e => return .error e
  | .ok loc =>
    let path := if physical ∨ e.here = [] then Raw.ofPath loc.text else path
    settle path
    return .ok path

/-- Where a target is searched for besides the working directory. -/
def searched? (target : Raw) : Run (Option (Raw × Bool)) := do
  let m ← get
  let e := m.environment
  let isFixed := target.head? = some '/' || [['.'], ['.', '.']].contains (target.takeWhile (· ≠ '/'))
  match ← varValue? "CDPATH".toList with
  | some path =>
    if isFixed then return none
    let tries := (path.splitOn ':').map fun dir =>
      (if dir = [] then target else dir ++ '/' :: target, !dir.isEmpty)
    return tries.find? fun (p, _) => m.store.isDir e.cwd (Raw.path p)
  | none => return none

/-- `cd`: changes the working directory. -/
def changeDirectory : Builtin := fun _ arguments => do
  let g ← given "LPe" "" arguments
  let extended ← isExtended
  let physical := g.options.getLast?.any (·.1 = 'P')
  let complainUnset (name : String) : Run Nat := do
    complainOwn (name.toList ++ " not set".toList)
    return 1
  if extended ∧ 1 < g.operands.length then
    complainOwn "too many arguments".toList
    return 1
  let home? ← varValue? "HOME".toList
  let old? ← varValue? "OLDPWD".toList
  match g.operands.head? with
  | none => if extended ∧ home?.isNone then return ← complainUnset "HOME"
  | some ['-'] => if extended ∧ old?.isNone then return ← complainUnset "OLDPWD"
  | _ => pure ()
  let (wanted, tells) : Raw × Bool :=
    match g.operands.head? with
    | none => (home?.getD [], false)
    | some ['-'] => (old?.getD [], true)
    | some target => (target, false)
  let target := if wanted = [] then ['.'] else wanted
  let found? ← searched? target
  let tells := tells || found?.any Prod.snd
  let answer ← match found? with
    | some (p, _) => goTo physical p
    | none => goTo physical target
  match answer with
  | .ok path => if tells then put (path ++ ['\n']) else return 0
  | .error e =>
    if extended then
      complainOwn (target ++ ": ".toList ++ (refusalText e).toList)
      return 1
    else fatal ("can't cd to ".toList ++ wanted)

/-- `pwd`: writes the working directory. -/
def workingDirectory : Builtin := fun _ arguments => do
  let g ← given "LP" "" arguments
  let m ← get
  let e := m.environment
  let path :=
    if g.options.getLast?.any (·.1 = 'P') then
      ((m.store.cwdText? e.cwd).toOption.map Raw.ofPath).getD (Raw.ofPath e.here)
    else Raw.ofPath e.here
  put (path ++ ['\n'])

/-- The permissions that a mask leaves, as they are wished for. -/
def leftBy (mask : Nat) : Raw :=
  let part (who : Char) (bits : Nat) : Raw :=
    who :: '=' :: (if bits &&& 4 = 0 then ['r'] else []) ++ (if bits &&& 2 = 0 then ['w'] else [])
      ++ (if bits &&& 1 = 0 then ['x'] else [])
  part 'u' (mask >>> 6) ++ ',' :: part 'g' (mask >>> 3) ++ ',' :: part 'o' mask

/-- `umask`: sets or shows the permissions that new files do not get. -/
def maskPermissions : Builtin := fun _ arguments => do
  let g ← given "Sp" "" arguments
  let e ← environment
  match g.operands with
  | [] => put ((if g.has 'S' then leftBy e.mask else Mode.octal 4 e.mask) ++ ['\n'])
  | wish :: _ =>
    let set (mask : Nat) : Run Nat := do
      modifyEnvironment fun e => { e with mask := mask &&& 0o777 }
      return 0
    if wish.head?.any Char.isDigit then
      if wish.all fun c => '0' ≤ c && c ≤ '7' then
        set (wish.foldl (fun n c => (n * 8 + (c.toNat - 48)) % 0x100000000) 0)
      else if e.dialect = .extended then
        complainOwn (wish ++ ": octal number out of range".toList)
        return 1
      else fatal ("Illegal number: ".toList ++ wish)
    else
      match Mode.wish? wish with
      | some w => set (0o777 ^^^ (w.apply 0 false (0o777 ^^^ e.mask) &&& 0o777))
      | none =>
        if e.dialect = .extended then
          complainOwn ('\x60' :: wish.take 1 ++ "': invalid symbolic mode operator".toList)
          return 1
        else fatal ("Illegal mode: ".toList ++ wish)

end LuaTree.Shell.Builtin

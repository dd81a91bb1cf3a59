import LuaTree.Shell.Utility.Basic

/-!
# Records from files

A feed gives records, which mostly are lines, from several files, one after the other. It reads no more than
it has to, so that what it has not been asked for can be put back.
-/

namespace LuaTree.Shell.Utility

open Run

/-- A record and where it comes from. -/
structure Piecemeal where
  text : Raw
  isComplete : Bool := true
  file : Nat
  name : Raw
  deriving Inhabited

/-- A way to take a record off a text: the record, whether its end is there, and what is left. The flag tells
whether nothing follows the text; if something may, there may be no answer yet. -/
abbrev Cutting := Raw → (isWhole : Bool) → Option (Raw × Bool × Raw)

def cutLine (ending : Char) : Cutting := fun t isWhole =>
  let line := t.takeWhile (· ≠ ending)
  match t.drop line.length with
  | _ :: rest => some (line, true, rest)
  | [] => if isWhole ∧ line ≠ [] then some (line, false, []) else none

/-- Files from which records are taken. -/
structure Feed where
  descriptor : Nat
  files : List Raw -- the files that have not been begun
  rest : Raw := [] -- what has been read and not been taken
  isOpen : Bool := false
  isWhole : Bool := false -- whether nothing follows what has been read of it
  file : Nat := 0
  name : Raw := []
  status : Nat := 0 -- the status, which is not zero if there have been files that could not be read
  deriving Inhabited

namespace Feed

def close (f : Feed) : Run Feed := do
  setDescriptor f.descriptor none
  return { f with isOpen := false, isWhole := false, rest := [] }

def advance (f : Feed) (file : Raw) (rest : List Raw) : Run (Except IoError Feed) := do
  let f := { f with files := rest, file := f.file + 1, name := file }
  let channel : Except IoError Channel ←
    if file = ['-'] then do
      match ← channel? 0 with
      | some c => pure (.ok c)
      | none => pure (.error (.os .badDescriptor))
    else openInput (Raw.path file)
  match channel with
  | .error e => return .error e
  | .ok c =>
    setDescriptor f.descriptor (some c)
    return .ok { f with isOpen := true, isWhole := false, rest := [] }

/-- Takes the next record, from the next file if need be; `refuse` says what is to be said about a file that
cannot be opened, or read, and answers with the status. -/
def next? (cutting : Cutting) (refuse : (isOpen : Bool) → Raw → IoError → Run Nat) :
    (fuel : Nat) → Feed → Run (Option Piecemeal × Feed)
  | 0, f => return (none, f)
  | fuel + 1, f => do
    if f.isOpen then
      match cutting f.rest f.isWhole with
      | some (text, isComplete, rest) =>
        return (some { text, isComplete, file := f.file, name := f.name }, { f with rest })
      | none =>
        if f.isWhole then next? cutting refuse fuel (← f.close)
        else
          match ← readSome f.descriptor blockSize with
          | .error e =>
            let status ← refuse true f.name (.os e)
            next? cutting refuse fuel { ← f.close with status := max f.status status }
          | .ok [] => next? cutting refuse fuel { f with isWhole := true }
          | .ok data => next? cutting refuse fuel { f with rest := f.rest ++ Raw.ofBytes data }
    else
      match f.files with
      | [] => return (none, f)
      | file :: rest =>
        match ← f.advance file rest with
        | .ok f => next? cutting refuse fuel f
        | .error e =>
          let status ← refuse false file e
          next? cutting refuse fuel
            { f with files := rest, file := f.file + 1, status := max f.status status }

/-- Puts back what has been read and not been taken. -/
def leave (f : Feed) : Run Unit := do
  if f.isOpen then unread f.descriptor f.rest.length

end Feed

end LuaTree.Shell.Utility

import LuaTree.Shell.Utility.Basic

/-!
# Utilities that work on names of files
-/

namespace LuaTree.Shell.Utility

open Run

/-- A path without the separators at its end. -/
def withoutSlashes (p : Raw) : Raw := (p.reverse.dropWhile (· = '/')).reverse

def lastName (p : Raw) : Raw :=
  let t := withoutSlashes p
  if t = [] then if p = [] then [] else ['/'] else (t.reverse.takeWhile (· ≠ '/')).reverse

/-- What stands before the last name of a path. -/
def directoryName (p : Raw) : Raw :=
  let t := withoutSlashes p
  if t = [] then if p = [] then ['.'] else ['/']
  else if !t.contains '/' then ['.']
  else
    let dir := withoutSlashes (t.reverse.dropWhile (· ≠ '/')).reverse
    if dir = [] then ['/'] else dir

/-- A name without an ending. -/
def withoutEnding (ending name : Raw) : Raw :=
  if ending ≠ [] ∧ ending ≠ name ∧ ending.isSuffixOf name then name.take (name.length - ending.length)
  else name

def inside (dir name : Raw) : Raw :=
  if dir.getLast? = some '/' then dir ++ name else dir ++ '/' :: name

/-- The end of a line of output, which may be a NUL. -/
def lineEnd (o : Options) : Raw := if o.has 'z' then ['\x00'] else ['\n']

/-- `basename`: writes the last name of a path. -/
def basename : Utility := withTable
    { flags := "az", valued := "s", inOrder := true
      long := [("multiple", 'a'), ("suffix", 's'), ("zero", 'z')] } fun name o => do
  match o.operands with
  | [] => complainMissing name
  | first :: more =>
    let several := o.has 'a' || o.has 's'
    if !several ∧ 1 < more.length then complainExtra name (more.getD 1 [])
    else
      let ending := if several then (o.value? 's').getD [] else more.headD []
      for p in if several then o.operands else [first] do
        putText (withoutEnding ending (lastName p) ++ lineEnd o)
      return 0

/-- `dirname`: writes what stands before the last name of a path. -/
def dirname : Utility := withOptions "z" "" [("zero", 'z')] fun name o => do
  if o.operands = [] then complainMissing name
  else
    for p in o.operands do
      putText (directoryName p ++ lineEnd o)
    return 0

/-- `pwd`: writes the working directory. -/
def pwd : Utility := withOptions "LP" "" [("logical", 'L'), ("physical", 'P')] fun name o => do
  let m ← get
  let e := m.environment
  if o.operands ≠ [] then complain name "ignoring non-option arguments".toList
  match m.store.cwdText? e.cwd with
  | .error _ =>
    complain name "couldn't find directory entry in '..' with matching i-node".toList
    return 1
  | .ok cwd =>
    let shown? : Option Raw :=
      if o.last? "LP" ≠ some 'L' then none
      else
        ((e.bindings.get? "PWD".toList).map Variable.value).filter fun p =>
          p.head? = some '/' && !((p.splitOn '/').any fun s => s = ['.'] || s = ['.', '.'])
            && (match m.store.stat? e.cwd (Raw.path p) with
                | .ok (loc, _) => loc = e.cwd
                | .error _ => false)
    putLine (shown?.getD (Raw.ofPath cwd))
    return 0

/-- How much of a path has to be there for it to be written out. -/
inductive Needed where
  | whole
  | parent -- all but the last name
  | nothing
  deriving DecidableEq

/-- The location that steps from another one lead to, which need not be there: names that are missing are
taken as they stand. -/
def assumed (s : Store) (origin : Location) (steps : List Step) : Except IoError Location :=
  steps.foldlM (fun loc step =>
    match step with
    | .stay | .slash => .ok loc
    | .up => .ok loc.dropLast
    | .enter n =>
      match s.stat? [] (Location.text (loc ++ [n])) with
      | .ok (found, _) => .ok found
      | .error (.os _) => .ok (loc ++ [n])
      | .error e => .error e) origin

def resolvedPath (needed : Needed) (p : Raw) : Run (Except IoError Raw) := do
  let m ← get
  let cwd := m.environment.cwd
  let path := Raw.path p
  if p = [] then return .error (.os .noEntry)
  match m.store.canonical? cwd path with
  | .ok full => return .ok (Raw.ofPath full)
  | .error e =>
    match needed with
    | .whole => return .error e
    | .parent =>
      match m.store.lookup cwd .create (Raw.path (if e = .os .noEntry then withoutSlashes p else p)) with
      | .ok (.vacant dir n) => return .ok (Raw.ofPath (Location.text (dir ++ [n])))
      | _ => return .error e
    | .nothing =>
      let origin : Location := if p.head? = some '/' then [] else cwd
      match assumed m.store origin (Step.ofPath path) with
      | .ok loc => return .ok (Raw.ofPath loc.text)
      | .error e => return .error e

def relativePath (origin target : Raw) : Raw :=
  let names (p : Raw) : List Raw := (p.splitOn '/').filter (· ≠ [])
  let a := names origin
  let b := names target
  let common := ((a.zip b).takeWhile fun (x, y) => x = y).length
  let parts := List.replicate (a.length - common) ['.', '.'] ++ b.drop common
  if parts = [] then ['.'] else ['/'].intercalate parts

/-- `readlink`: writes where links lead, or paths written out. -/
def readlink : Utility := withOptions "femnqsvz" ""
    [("canonicalize", 'f'), ("canonicalize-existing", 'e'), ("canonicalize-missing", 'm'),
     ("no-newline", 'n'), ("quiet", 'q'), ("silent", 's'), ("verbose", 'v'), ("zero", 'z')] fun name o => do
  if o.operands = [] then return ← complainMissing name
  let single := o.has 'n' && o.operands.length = 1
  if o.has 'n' ∧ !single then complain name "ignoring --no-newline with multiple arguments".toList
  let ending := if single then [] else lineEnd o
  forEach o.operands fun p => do
    let m ← get
    let answer : Except IoError Raw ←
      match o.last? "fem" with
      | some 'f' => resolvedPath .parent p
      | some 'e' => resolvedPath .whole p
      | some _ => resolvedPath .nothing p
      | none =>
        match m.store.lstat? m.environment.cwd (Raw.path p) with
        | .ok (_, .link target) => pure (.ok (Raw.ofPath target))
        | .ok _ => pure (.error (.os .invalidArgument))
        | .error e => pure (.error e)
    match answer with
    | .ok t =>
      putText (t ++ ending)
      return true
    | .error e =>
      if o.last? "qsv" = some 'v' then complainFile name p e
      return false

/-- `realpath`: writes paths out. -/
def realpath : Utility := withOptions "emLPqsz" "RB"
    [("canonicalize-existing", 'e'), ("canonicalize-missing", 'm'), ("logical", 'L'), ("physical", 'P'),
     ("quiet", 'q'), ("strip", 's'), ("no-symlinks", 's'), ("zero", 'z'), ("relative-to", 'R'),
     ("relative-base", 'B')] fun name o => do
  if o.operands = [] then return ← complainMissing name
  let needed : Needed := match o.last? "em" with
    | some 'e' => .whole
    | some _ => .nothing
    | none => .parent
  let origin? ← match o.value? 'R' with
    | some dir =>
      match ← resolvedPath needed dir with
      | .ok t => pure (some t)
      | .error e =>
        complainFile name dir e
        return 1
    | none => pure none
  forEach o.operands fun p => do
    let answer ←
      if o.has 's' ∧ p ≠ [] then do
        let cwd := Raw.ofPath (← environment).cwd.text
        let full := if p.head? = some '/' then p else inside cwd p
        let names := ((full.splitOn '/').filter fun n => n ≠ [] && n ≠ ['.']).foldl
          (fun (names : List Raw) n => if n = ['.', '.'] then names.dropLast else names ++ [n]) []
        pure (.ok ('/' :: ['/'].intercalate names))
      else resolvedPath needed p
    match answer with
    | .ok t =>
      putText ((match origin? with
        | some origin => relativePath origin t
        | none => t) ++ lineEnd o)
      return true
    | .error e =>
      if !o.has 'q' then complainFile name p e
      return false

end LuaTree.Shell.Utility

import LuaTree.Error
import LuaTree.Store.Lookup

/-!
# Walking a directory tree

`Walk.findings` lists what a walk through a directory tree meets, parents before their entries and
entries in the order of their names: the regular files, and the entries it had to skip. Links are
followed. A link that leads to a directory which the walk is inside of is a fault, so the walk ends:
between two links on a branch only real directories are entered, and the links of a branch lead to
different directories (`Walk.depthLimit`).

The directory where the output goes is left out wherever the walk meets it.
-/

namespace LuaTree.Walk

/-- A directory that the walk is inside of: where it is, and the path it was entered by. -/
structure Ancestor where
  location : Location
  path : PathText
  deriving DecidableEq, Inhabited

/-- What the walk meets. -/
inductive Finding where
  | file (path : PathText)
  | fault (f : WalkFault)
  deriving DecidableEq, Inhabited

/-- What is done with an entry of a directory. -/
inductive Visit where
  | enter (location : Location)
  | report (f : Finding)
  | ignore
  deriving DecidableEq, Inhabited

/-- Decides about the entry `n` of the directory that was entered last. -/
def visit (s : Store) (cwd : Location) (inside : List Ancestor) (dir : Ancestor) (n : Name) :
    Visit :=
  let path := PathText.join dir.path n
  match s.entry? (dir.location ++ [n]) with
  | some (.dir _) => .enter (dir.location ++ [n])
  | some (.file _) => .report (.file path)
  | some (.link _) =>
    match s.stat? cwd path with
    | .error cause => .report (.fault (.unreadable path cause))
    | .ok (location, .dir _) =>
      -- the nearest ancestor is the one that is named
      match (dir :: inside).find? fun a => a.location = location with
      | some ancestor => .report (.fault (.loop path ancestor.path))
      | none => .enter location
    | .ok (_, .file _) => .report (.file path)
    | .ok _ => .ignore
  | _ => .ignore

/-- Walks through a directory, at most `depth` directories deep. -/
def findingsWithin (s : Store) (cwd : Location) (leaveOut : Option PathText) :
    (depth : Nat) → List Ancestor → Ancestor → List Finding
  | 0, _, _ => []
  | depth + 1, inside, dir =>
    let canonical := (s.canonical? cwd dir.path).toOption
    if leaveOut.isSome && canonical = leaveOut then []
    else
      match s.list? cwd dir.path with
      | .error cause => [.fault (.unreadable dir.path cause)]
      | .ok names => names.flatMap fun n =>
        match visit s cwd inside dir n with
        | .enter location =>
          findingsWithin s cwd leaveOut depth (dir :: inside) ⟨location, PathText.join dir.path n⟩
        | .report f => [f]
        | .ignore => []

/-- How deep a walk can get: one real descent for the root and for every directory that a link on the
branch leads to. -/
def depthLimit (s : Store) : Nat := (s.dirCount + 1) * (s.dirCount + 1)

/-- What a walk through the directory at `root` meets, the directory at `output` left out. -/
def findings (s : Store) (cwd : Location) (root output : PathText) : List Finding :=
  match s.stat? cwd root with
  | .error cause => [.fault (.unreadable root cause)]
  | .ok (location, _) =>
    findingsWithin s cwd (s.canonical? cwd output).toOption (depthLimit s) [] ⟨location, root⟩

end LuaTree.Walk

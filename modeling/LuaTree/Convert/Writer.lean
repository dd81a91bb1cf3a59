import LuaTree.Error
import LuaTree.Store.Update

/-!
# Writing output

The three ways in which a conversion writes: creating the directories above a destination, copying a
file, and publishing new contents all or nothing.

Contents are published through a temporary file beside the destination. The stages are definitions of
their own (`Publication.beginAs`, `write`, `commit`, `abandon`), since what holds between two of them is
what makes the whole safe; `publish` composes them. A store that a later stage refuses is handed to
`abandon`, so no temporary file is left behind.
-/

namespace LuaTree

namespace Store

/-! ## Directories above a destination -/

/-- Creates a directory and what is missing above it, `ps` being the path and the parents above it,
nearest first. A directory that is there already is as good as a new one. -/
def makeDirsAt (s : Store) (cwd : Location) : List PathText → Except IoError Unit × Store
  | [] => (.ok (), s)
  | p :: above =>
    match s.makeDir cwd p with
    | .ok s => (.ok (), s)
    | .error cause =>
      if cause = .os .noEntry && above ≠ [] then
        match s.makeDirsAt cwd above with
        | (.error cause, s) => (.error cause, s)
        | (.ok (), s) =>
          match s.makeDir cwd p with
          | .ok s => (.ok (), s)
          | .error cause => (if s.isDir cwd p then .ok () else .error cause, s)
      else (if s.isDir cwd p then .ok () else .error cause, s)

/-- Creates a directory and what is missing above it. -/
def makeDirs (s : Store) (cwd : Location) (p : PathText) : Except IoError Unit × Store :=
  s.makeDirsAt cwd (PathText.ancestors p)

end Store

/-- The directory above a path, when its text names one. -/
def parentText? (p : PathText) : Option PathText :=
  match PathText.parent? p with
  | none | some [] => none
  | some dir => some dir

/-- Creates the directory above a path and what is missing above that. -/
def ensureParent (s : Store) (cwd : Location) (p : PathText) : Except Error Unit × Store :=
  match parentText? p with
  | none => (.ok (), s)
  | some dir =>
    let (result, s) := s.makeDirs cwd dir
    (result.mapError (.createDir dir), s)

/-! ## Copying -/

/-- Copies a file byte for byte. -/
def copyVerbatim (s : Store) (cwd : Location) (source target : PathText) :
    Except Error Unit × Store :=
  match s.copyFile cwd source target with
  | .ok s => (.ok (), s)
  | .error cause => (.error (.copy source target cause), s)

/-! ## Publishing -/

/-- A temporary file that is to become the file at some path. -/
structure Publication where
  location : Location
  handle : Handle -- the temporary file, open for writing
  deriving DecidableEq, Inhabited

namespace Publication

/-- The directory that the temporary file for a path goes to. -/
def directory (p : PathText) : PathText := (parentText? p).getD ['.']

/-- The `k`-th name for a temporary file. -/
def temporaryName (k : Nat) : Name :=
  let digits := Nat.toDigits 10 k
  ".tmp".toList ++ List.replicate (6 - digits.length) '0' ++ digits

/-- A name for a temporary file that is free in a directory: the first one that nothing has. One more
name than the directory has entries is enough to choose from. -/
def freeName (s : Store) (dir : Location) : Name :=
  let entries := (s.names dir).length
  temporaryName (((List.range entries).find? fun k =>
    ( s.entry? (dir ++ [temporaryName k])).isNone).getD entries)

/-- The path of the temporary file for a path, from the root; which of the names it gets is not part
of the question whether a path is one that can be looked up, so it has the first one. -/
def scratchPath (s : Store) (cwd : Location) (p : PathText) : Except IoError PathText := do
  let dir := directory p
  let dir ← if PathText.isAbsolute dir then pure dir else
    (s.cwdText? cwd).map fun here => PathText.join here dir
  return PathText.join dir (temporaryName 0)

/-- Begins a publication with a temporary file of the name that `pick` has for its directory. -/
def beginAs (pick : Location → Name) (s : Store) (cwd : Location) (p : PathText) :
    Except IoError (Publication × Store) := do
  let path ← scratchPath s cwd p
  match s.locate cwd path with
  | .error cause => throw (.atPath cause path)
  | .ok slot =>
    let location := slot.dir ++ [pick slot.dir]
    return (⟨location, .file s.freshInode⟩, s.putFile location ⟨[], s.masked 0o666⟩)

def write (pub : Publication) (s : Store) (chunk : Bytes) : Store := s.append pub.handle chunk

/-- Moves the temporary file over the path it was created for. -/
def commit (pub : Publication) (s : Store) (cwd : Location) (p : PathText) : Except IoError Store :=
  s.moveFile pub.location cwd p

/-- Removes the temporary file. -/
def abandon (pub : Publication) (s : Store) : Store := s.take pub.location

end Publication

/-- Makes `data` the contents of the file at a path, all or nothing, through a temporary file of the name
that `pick` has for its directory. -/
def publishAs (pick : Location → Name) (s : Store) (cwd : Location) (p : PathText) (data : Bytes) :
    Except Error Unit × Store :=
  match Publication.beginAs pick s cwd p with
  | .error cause => (.error (.fileWrite p cause), s)
  | .ok (pub, s) =>
    let s := pub.write s data
    match pub.commit s cwd p with
    | .ok s => (.ok (), s)
    | .error cause => (.error (.fileWrite p cause), pub.abandon s)

/-- Makes `data` the contents of the file at a path, all or nothing. -/
def publish (s : Store) (cwd : Location) (p : PathText) (data : Bytes) : Except Error Unit × Store :=
  publishAs (Publication.freeName s) s cwd p data

end LuaTree

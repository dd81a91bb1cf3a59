import LuaTree.Store.Lookup

/-!
# Changing stores

The file operations that change a store, each by path and each all or nothing: an operation answers
with a failure, and then the store is the one it was given, or with the store afterwards. What several
operations build together (creating all missing parents, replacing a file through a temporary one)
is not all or nothing and lives with the writers.

Permission is never refused: whoever runs the operations owns everything. New files and directories
get the usual permission bits less those of the mask, which no operation changes.
-/

namespace LuaTree

/-- An open file. -/
inductive Handle where
  | file (inode : Nat)
  | dir -- a directory, which can be opened but not read
  | device (d : Device)
  deriving DecidableEq, Inhabited

namespace Store

/-! ## Reading -/

/-- Opens what a path leads to for reading. A named pipe reads like a device without data. -/
def openRead (s : Store) (cwd : Location) (p : PathText) : Except IoError Handle := do
  match ← s.stat? cwd p with
  | (_, .file i) => return .file i
  | (_, .dir _) => return .dir
  | (_, .device .terminal) => throw (.os .noDevice)
  | (_, .device d) => return .device d
  | (_, _) => return .device .null

/-- The first bytes of an open file, at most `n`. -/
def readUpTo (s : Store) (n : Nat) : Handle → Except IoError Bytes
  | .file i => .ok ((s.inode i).data.take n)
  | .dir => .error (.os .isDirectory)
  | .device .zero | .device .full => .ok (List.replicate n 0)
  | .device _ => .ok []

def modeOf (s : Store) : Entry → Nat
  | .dir mode => mode
  | .file i => (s.inode i).mode
  | .link _ => 0o777
  | .fifo => s.masked 0o666
  | .device _ => 0o666

def mode? (s : Store) (cwd : Location) (p : PathText) : Except IoError Nat := do
  let (_, e) ← s.stat? cwd p
  return s.modeOf e

/-! ## Directories -/

def makeDir (s : Store) (cwd : Location) (p : PathText) : Except IoError Store := do
  match ← s.locate cwd p with
  | { name? := none, .. } => throw (.os .alreadyExists)
  | { dir, name? := some n, .. } =>
    match s.entry? (dir ++ [n]) with
    | some _ => throw (.os .alreadyExists)
    | none => return s.put (dir ++ [n]) (.dir (s.masked 0o777))

/-! ## Files -/

/-- Opens a file for writing from its start: what it held is gone, and a missing file is created with
permission bits `mode` less the mask. -/
def openWrite (s : Store) (cwd : Location) (p : PathText) (mode : Nat) :
    Except IoError (Handle × Store) := do
  match ← s.lookup cwd .create p with
  | .vacant dir n =>
    return (.file s.freshInode, s.putFile (dir ++ [n]) ⟨[], s.masked mode⟩)
  | .entry _ (.file i) => return (.file i, s.setInode i { s.inode i with data := [] })
  | .entry _ (.dir _) => throw (.os .isDirectory)
  | .entry _ (.device .terminal) => throw (.os .noDevice)
  | .entry _ (.device d) => return (.device d, s)
  | .entry _ _ => return (.device .null, s)

/-- Adds bytes to the end of an open file; devices swallow them. -/
def append (s : Store) (h : Handle) (data : Bytes) : Store :=
  match h with
  | .file i => s.setInode i { s.inode i with data := (s.inode i).data ++ data }
  | _ => s

/-- Writes bytes to the end of an open file, unless there is no room for them. -/
def extend (s : Store) (h : Handle) (data : Bytes) : Except IoError Store :=
  if h = .device .full ∧ data ≠ [] then .error (.os .noSpace) else .ok (s.append h data)

/-- Sets the permission bits of an open file; devices keep theirs. -/
def setMode (s : Store) (h : Handle) (mode : Nat) : Store :=
  match h with
  | .file i => s.setInode i { s.inode i with mode }
  | _ => s

/-- Creates a file at a free location, or answers that the location is taken. -/
def createNew (s : Store) (cwd : Location) (p : PathText) (mode : Nat) :
    Except IoError (Location × Store) := do
  match ← s.locate cwd p with
  | { name? := none, .. } => throw (.os .alreadyExists)
  | { dir, name? := some n, slash } =>
    match s.entry? (dir ++ [n]) with
    | some _ => throw (.os .alreadyExists)
    | none =>
      if slash then throw (.os .isDirectory)
      return (dir ++ [n], s.putFile (dir ++ [n]) ⟨[], s.masked mode⟩)

/-- Copies a regular file with its permission bits. The target is emptied before the source is read,
so a file copied onto itself ends up empty. -/
def copyFile (s : Store) (cwd : Location) (source target : PathText) : Except IoError Store := do
  match ← s.openRead cwd source with
  | .file i =>
    let mode := (s.inode i).mode
    let (h, s) ← s.openWrite cwd target mode
    (s.setMode h mode).extend h (s.inode i).data
  | _ => throw (.refused
      "the source path is neither a regular file nor a symlink to a regular file")

/-- Moves the file at a location to a path, in place of what stood there. A link there is replaced
and not followed. -/
def moveFile (s : Store) (source : Location) (cwd : Location) (p : PathText) :
    Except IoError Store := do
  if '\x00' ∈ p then throw (.os .invalidArgument)
  match ← s.locate cwd p with
  | { name? := none, .. } => throw (.os .busy)
  | { dir, name? := some n, slash } =>
    if slash then throw (.os .notDirectory)
    match s.entry? source, s.entry? (dir ++ [n]) with
    | none, _ => throw (.os .noEntry)
    | _, some (.dir _) => throw (.os .isDirectory)
    | some e, _ => return (s.take source).put (dir ++ [n]) e

/-! ## Links, pipes and removal -/

/-- Puts a new entry under a free name. -/
def makeEntry (s : Store) (cwd : Location) (p : PathText) (e : Entry) : Except IoError Store := do
  match ← s.locate cwd p with
  | { name? := none, .. } => throw (.os .alreadyExists)
  | { dir, name? := some n, slash } =>
    match s.entry? (dir ++ [n]) with
    | some _ => throw (.os .alreadyExists)
    | none =>
      if slash then throw (.os .noEntry)
      return s.put (dir ++ [n]) e

/-- Creates a symbolic link that leads to `target`. -/
def makeLink (s : Store) (cwd : Location) (target p : PathText) : Except IoError Store := do
  checkText target
  s.makeEntry cwd p (.link target)

/-- Gives an existing file another name. -/
def makeHardLink (s : Store) (cwd : Location) (existing p : PathText) : Except IoError Store := do
  match ← s.lstat? cwd existing with
  | (_, .dir _) => throw (.os .notPermitted)
  | (_, e) => s.makeEntry cwd p e

/-- Sets the permission bits of what a path leads to. -/
def changeMode (s : Store) (cwd : Location) (p : PathText) (mode : Nat) : Except IoError Store := do
  match ← s.stat? cwd p with
  | (_, .file i) => return s.setMode (.file i) mode
  | (loc, .dir _) => return s.put loc (.dir mode)
  | _ => return s

def removeFile (s : Store) (cwd : Location) (p : PathText) : Except IoError Store := do
  match ← s.lstat? cwd p with
  | (_, .dir _) => throw (.os .isDirectory)
  | (loc, _) => return s.take loc

/-- Removes a directory without entries. -/
def removeDir (s : Store) (cwd : Location) (p : PathText) : Except IoError Store := do
  match ← s.lstat? cwd p with
  | (loc, .dir _) =>
    if s.names loc ≠ [] then throw (.os .notEmpty)
    return s.take loc
  | _ => throw (.os .notDirectory)

def removeAll (s : Store) (cwd : Location) (p : PathText) : Except IoError Store := do
  let (loc, _) ← s.lstat? cwd p
  return s.takeTree loc

end Store

end LuaTree

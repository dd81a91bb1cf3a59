import LuaTree.FiniteMap
import LuaTree.Store.Tree

/-!
# Stores

A `Store` is the state of a file system. It keeps a tree of entries by their *locations* (the names on
the way down from the root, with no link, `.` or `..` left in them), and the contents of regular files
apart, under inode numbers, so that two locations can name one file.

Nobody outside this folder needs the representation: `view` says what stands at a location, and two
stores are the same when their views are.
-/

namespace LuaTree

def Location.text (loc : Location) : PathText :=
  if loc = [] then ['/'] else loc.flatMap fun n => '/' :: n

/-- What is not kept anywhere but made up when it is read, or gone when it is written. -/
inductive Device where
  | null -- reads as empty and swallows what is written
  | zero -- reads as zero bytes without end and swallows what is written
  | full -- reads as zero bytes without end and has no room for what is written
  | terminal -- the terminal of the process, of which there is none
  | descriptor (n : Nat) -- what a descriptor of the process that opens it leads to
  deriving DecidableEq, Inhabited

/-- What a directory holds under a name. -/
inductive Entry where
  | dir (mode : Nat) -- a directory with its permission bits
  | file (inode : Nat) -- a regular file, by the number under which its contents are kept
  | link (target : PathText)
  | fifo
  | device (d : Device)
  deriving DecidableEq, Inhabited

def Entry.isDir : Entry → Bool
  | .dir _ => true
  | _ => false

def Entry.isFile : Entry → Bool
  | .file _ => true
  | _ => false

/-- Where a link leads. -/
def Entry.target? : Entry → Option PathText
  | .link target => some target
  | _ => none

/-- The contents and permission bits of a regular file. -/
structure Inode where
  data : Bytes
  mode : Nat
  deriving DecidableEq, Inhabited

/-- The state of a file system, and the mask of the process that changes it. -/
structure Store where
  tree : Tree Entry -- the entries by location; the root is the empty location
  inodes : FiniteMap Nat Inode -- contents of regular files by number
  umask : Nat := 0o022 -- the permission bits that new files and directories do not get
  deriving Inhabited

/-- What can be seen at a location. -/
inductive View where
  | dir (mode : Nat)
  | file (data : Bytes) (mode : Nat)
  | link (target : PathText)
  | fifo
  | device (d : Device)
  deriving DecidableEq, Inhabited

namespace Store

/-- The store that holds nothing but the root directory. -/
def empty : Store where
  tree := Tree.empty.put [] (.dir 0o755)
  inodes := .empty

def entry? (s : Store) (loc : Location) : Option Entry := s.tree.get? loc

/-- The file kept under a number. -/
def inode (s : Store) (i : Nat) : Inode := (s.inodes.get? i).getD ⟨[], 0⟩

/-- What stands at a location. -/
def view (s : Store) (loc : Location) : Option View :=
  (s.entry? loc).map fun
    | .dir mode => .dir mode
    | .file i => .file (s.inode i).data (s.inode i).mode
    | .link target => .link target
    | .fifo => .fifo
    | .device d => .device d

/-- Two stores that nobody can tell apart by looking. -/
def Same (s t : Store) : Prop := ∀ loc, s.view loc = t.view loc

/-- What is left of the permission bits that something new is to have. -/
def masked (s : Store) (mode : Nat) : Nat := mode &&& (0o7777 ^^^ s.umask)

/-- A number under which no file is kept: one more than the largest in use. -/
def freshInode (s : Store) : Nat := s.inodes.keys.foldl max 0 + 1

/-- The order of names in a sorted directory: bytewise, which is by code point. -/
def nameLe (m n : Name) : Bool := !decide (n < m)

/-- The names in a directory, sorted. -/
def names (s : Store) (dir : Location) : List Name := (s.tree.sub dir).names.mergeSort nameLe

def dirCount (s : Store) : Nat := s.tree.count Entry.isDir

def holdsDir (s : Store) (loc : Location) : Bool := ( s.entry? loc).any Entry.isDir

/-! ## Elementary updates -/

def put (s : Store) (loc : Location) (e : Entry) : Store := { s with tree := s.tree.put loc e }

def take (s : Store) (loc : Location) : Store := { s with tree := s.tree.take loc }

/-- Takes away the entry at a location and all below it. -/
def takeTree (s : Store) (loc : Location) : Store := { s with tree := s.tree.graft loc .empty }

/-- Puts what stands at a location, and all below it, in the place of another one. -/
def moveTree (s : Store) (source target : Location) : Store :=
  { s with tree := (s.tree.graft source .empty).graft target (s.tree.sub source) }

/-- Sets contents and permission bits of a file. -/
def setInode (s : Store) (i : Nat) (file : Inode) : Store :=
  { s with inodes := s.inodes.insert i file }

def putFile (s : Store) (loc : Location) (file : Inode) : Store :=
  (s.setInode s.freshInode file).put loc (.file s.freshInode)

end Store

end LuaTree

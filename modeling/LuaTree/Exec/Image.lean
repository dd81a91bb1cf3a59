import LuaTree.Shell.Raw
import LuaTree.Store.Update

/-!
# Program files

What happens when a file is to be run. The file must be regular and executable; then its contents
decides: a native program is one of the machine's own, known by a mark, and a script names the program that
reads it, which can be a script again.
-/

namespace LuaTree.Exec

/-- What every program of a processor begins with. -/
def signature : Bytes := [0x7F, 0x45, 0x4C, 0x46]

/-- What follows the signature in a program of this machine, a number that no other file has by chance. -/
def ownMark : Bytes :=
  [0x02, 0x01, 0x01, 0x00, 0xD3, 0x5A, 0x91, 0xC6, 0x0B, 0xEE, 0x47, 0x2C, 0xF8, 0x13, 0x60, 0xA9]

def nativeImage (name : Raw) : Bytes := signature ++ ownMark ++ Raw.bytes name

/-- What a program file starts. -/
inductive Image where
  | native (name : Raw)
  -- a script, with its interpreter and the one argument that it can be given
  | script (interpreter : Raw) (argument? : Option Raw)
  deriving DecidableEq, Inhabited

/-- Whether a character separates the parts of a script's first line. -/
def isBlank (c : Char) : Bool := c = ' ' || c = '\t'

/-- How many bytes of a file are looked at. -/
def headSize : Nat := 256

def scriptLine (line : Raw) : Except Errno Image :=
  let line := ((line.reverse.dropWhile isBlank).reverse).dropWhile isBlank
  if line = [] then .error .badExecutable
  else
    let interpreter := line.takeWhile fun c => !isBlank c && c ≠ '\x00'
    match line.drop interpreter.length with
    | [] | '\x00' :: _ => .ok (.script interpreter none)
    | rest => .ok (.script interpreter (some ((rest.dropWhile isBlank).takeWhile (· ≠ '\x00'))))

/-- What the head of a script starts, behind the two characters that mark it; a file that is shorter than
its head reads as NUL to the end. A line that is cut off must at least show where the interpreter ends. -/
def scriptImage (t : Raw) : Except Errno Image :=
  let room := headSize - 2
  let t := t ++ List.replicate (room - t.length) '\x00'
  let line := t.takeWhile fun c => c ≠ '\n' && c ≠ '\x00'
  match t.drop line.length with
  | '\n' :: _ => scriptLine line
  | _ =>
    if (t.dropWhile isBlank).any fun c => isBlank c || c = '\x00' then scriptLine (t.take (room - 1))
    else .error .badExecutable

/-- What a file with some contents starts. -/
def imageOf (data : Bytes) : Except Errno Image :=
  if (signature ++ ownMark).isPrefixOf data then
    .ok (.native (Raw.ofBytes (data.drop (signature ++ ownMark).length)))
  else
    match Raw.ofBytes (data.take headSize) with
    | '#' :: '!' :: t => scriptImage t
    | _ => .error .badExecutable

/-- What running the file at a path starts. -/
def image (s : Store) (cwd : Location) (p : PathText) : Except Errno Image :=
  match s.stat? cwd p with
  | .error (.os e) => .error e
  | .error _ => .error .noEntry
  | .ok (_, .file i) =>
    if (s.inode i).mode &&& 0o100 = 0 then .error .denied else imageOf (s.inode i).data
  | .ok _ => .error .denied

/-- A native program that is ready to run. -/
structure Loaded where
  native : Raw
  name : Raw
  arguments : List Raw
  deriving Inhabited

/-- The native program that runs a file, interpreters followed down to some depth. -/
def loadAt (s : Store) (cwd : Location) :
    (depth : Nat) → (file name : Raw) → (arguments : List Raw) → Except Errno Loaded
  | 0, _, _, _ => .error .tooManyLinks
  | depth + 1, file, name, arguments => do
    -- no name at all is the working directory's
    if file = [] then throw .denied
    match ← image s cwd (Raw.path file) with
    | .native native => return { native, name, arguments }
    | .script interpreter argument? =>
      loadAt s cwd depth interpreter interpreter (argument?.toList ++ file :: arguments)

def load (s : Store) (cwd : Location) (file : Raw) (arguments : List Raw) : Except Errno Loaded :=
  loadAt s cwd 6 file file arguments

/-- The shell for files that say nothing of who is to read them. -/
def usualShell : Raw := "/bin/sh".toList

/-- Whether the first line of a file is one that a shell takes for a line of a script. -/
def looksReadable (data : Bytes) : Bool :=
  ((data.take 128).takeWhile (· ≠ 10)).all fun b =>
    (32 ≤ b && b ≠ 127) || [9, 11, 12, 13, 14, 15, 27].contains b

/-- The same, but a file that is no program at all is read by the usual shell, if that may be a script. -/
def loadAnyhow (s : Store) (cwd : Location) (mayBeScript : Bytes → Bool) (file name : Raw)
    (arguments : List Raw) : Except Errno Loaded :=
  match loadAt s cwd 6 file name arguments with
  | .error e =>
    let isScript : Bool := match s.stat? cwd (Raw.path file) with
      | .ok (_, .file i) => mayBeScript (s.inode i).data
      | _ => true
    if e = .badExecutable && isScript then load s cwd usualShell (file :: arguments) else .error e
  | ok => ok

/-- The path of a file in a directory of a search path. -/
def candidate (dir name : Raw) : Raw := if dir = [] then name else dir ++ '/' :: name

/-- The program with a name in the directories of a search path. A file that may not be run is passed
over, but told of when there is no other. -/
def search (load : (file : Raw) → Except Errno Loaded) (name : Raw) (otherwise : Errno) :
    (dirs : List Raw) → Except Errno Loaded
  | [] => .error otherwise
  | dir :: dirs =>
    match load (candidate dir name) with
    | .ok loaded => .ok loaded
    | .error e =>
      if e = .denied then search load name .denied dirs
      else if e = .noEntry ∨ e = .notDirectory then search load name otherwise dirs
      else .error e

/-- The program that a name stands for, given what loads a file under a name: one with a separator is a
path, others are searched for. -/
def findBy (load : (file name : Raw) → Except Errno Loaded) (path name : Raw) : Except Errno Loaded :=
  if name = [] then .error .noEntry
  else if name.contains '/' then load name name
  else if Store.nameLimit < name.length then .error .nameTooLong
  else search (load · name) name .noEntry (path.splitOn ':')

/-- The program that a name stands for. -/
def find (s : Store) (cwd : Location) (path name : Raw) (arguments : List Raw) : Except Errno Loaded :=
  findBy (fun file name => loadAt s cwd 6 file name arguments) path name

/-- The same, where the usual shell reads what is no program at all. -/
def findAnyhow (s : Store) (cwd : Location) (path name : Raw) (arguments : List Raw)
    (mayBeScript : Bytes → Bool := fun _ => true) : Except Errno Loaded :=
  findBy (fun file name => loadAnyhow s cwd mayBeScript file name arguments) path name

def searchPath : Raw := "/usr/local/sbin:/usr/local/bin:/usr/sbin:/usr/bin:/sbin:/bin".toList

end LuaTree.Exec

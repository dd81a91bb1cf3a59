import LuaTree.Store.Basic
import LuaTree.Store.Errno

/-!
# Looking up paths

`Store.walk` follows a path through a store the way an operating system does: segment by segment from
the working directory, links expanded where they stand, at most `linkLimit` of them. It is two nested
recursions, on the number of links still allowed and on the segments still ahead, so it computes and
it needs no termination argument. On its way it keeps the trees of the directories it came through
(`Trail`), so that a step costs the same at any depth.

A directory that has been removed can still be the place from which a process looks things up: it holds
nothing and takes nothing in, but there is a way up from it.

Lookups differ only in what they do at the last name:

* `stat?` follows a link there and needs an entry;
* `lstat?` takes the link itself;
* `locate` stops before the last name and answers with the directory it belongs to;
* `creatable?` follows links and accepts a name that is still free.

Before any of them the text itself is checked: it must not be empty, hold a NUL or be too long.

A path is written out as the location that it leads to by `canonical?`, which is no lookup of that path. It
builds the location name by name and looks each name up by the text that it has so far. So `..` goes back in
that text, the path itself may be as long as it likes, and no text on the way may be too long.
-/

namespace LuaTree

/-- One step of a lookup. -/
inductive Step where
  | stay
  | up -- a `..` segment: go to the directory above
  | enter (n : Name)
  | slash -- a separator at the end: what was reached must be a directory
  deriving DecidableEq, Inhabited

namespace Step

/-- The step a segment stands for; empty segments are none. -/
def ofSegment? (segment : List Char) : Option Step :=
  if segment = [] then none
  else if segment = ['.'] then some .stay
  else if segment = ['.', '.'] then some .up
  else some (.enter segment)

def ofPath (p : PathText) : List Step :=
  (PathText.segments p).filterMap ofSegment? ++ if p.getLast? = some '/' then [.slash] else []

end Step

/-- A way down from the root, with the trees of the directories it leads through. -/
structure Trail where
  root : Tree Entry
  way : List (Name × Tree Entry) := [] -- the names and trees on the way, nearest first

namespace Trail

def here (t : Trail) : Tree Entry :=
  match t.way with
  | [] => t.root
  | (_, tree) :: _ => tree

def location (t : Trail) : Location := (t.way.map Prod.fst).reverse

def top (t : Trail) : Trail := { t with way := [] }

def up (t : Trail) : Trail := { t with way := t.way.tail }

def enter (t : Trail) (n : Name) : Trail := { t with way := (n, t.here.child n) :: t.way }

def ofLocation (root : Tree Entry) (loc : Location) : Trail := loc.foldl enter { root }

end Trail

/-- What a lookup does when the last name is a link, or is missing. -/
inductive LastName where
  | follow -- follow the link; a missing name is an error
  | keep -- take the link itself; a missing name is an error
  | create -- follow the link; a missing name is where something can be created
  deriving DecidableEq

/-- Where a lookup ends. -/
inductive Place where
  | entry (loc : Location) (e : Entry)
  | vacant (dir : Location) (n : Name) -- at a name that is free in an existing directory
  deriving DecidableEq, Inhabited

/-- What a path leads to when it leads to a directory's name. -/
structure Slot where
  dir : Location
  name? : Option Name -- the last name; none when the path ends in `.`, `..` or is the root
  slash : Bool -- whether a separator follows the name
  deriving DecidableEq, Inhabited

namespace Store

/-- How many links one lookup may follow. -/
def linkLimit : Nat := 40

/-- How many bytes a name may take. -/
def nameLimit : Nat := 255

/-- How many bytes a path must stay below. -/
def pathLimit : Nat := 4096

def start (cwd : Location) (p : PathText) : Location := if PathText.isAbsolute p then [] else cwd

/-- The permission bits of a directory that has been removed. -/
def removedMode : Nat := 0o755

/-- Takes the steps ahead from a directory; `expand` goes on after a link. -/
def walkWith (last : LastName) (expand : Trail → PathText → List Step → Except Errno Place) :
    Trail → List Step → Except Errno Place
  | trail, [] => .ok (.entry trail.location (trail.here.held.getD (.dir removedMode)))
  | trail, .stay :: ahead => walkWith last expand trail ahead
  | trail, .slash :: ahead => walkWith last expand trail ahead
  | trail, .up :: ahead => walkWith last expand trail.up ahead
  | trail, .enter n :: ahead =>
    -- a separator after the last name can only be meant for a directory
    if last = .create ∧ ahead = [.slash] then .error .isDirectory
    else if nameLimit < Utf8.byteLength n then .error .nameTooLong
    else
      match (trail.here.child n).held with
      | none =>
        if last = .create ∧ ahead = [] ∧ trail.here.held.isSome then .ok (.vacant trail.location n)
        else .error .noEntry
      | some (.link target) =>
        if last = .keep ∧ ahead = [] then .ok (.entry (trail.enter n).location (.link target))
        else expand trail target ahead
      | some (.dir _) => walkWith last expand (trail.enter n) ahead
      | some e =>
        if ahead = [] then .ok (.entry (trail.enter n).location e) else .error .notDirectory

/-- Takes the steps ahead from a directory, following at most `links` links. -/
def walk (last : LastName) : (links : Nat) → Trail → List Step → Except Errno Place
  | 0 => walkWith last fun _ _ _ => .error .tooManyLinks
  | links + 1 => walkWith last fun trail target ahead =>
    walk last links (if PathText.isAbsolute target then trail.top else trail)
      (Step.ofPath target ++ ahead)

/-- Takes the steps of a path from a location. -/
def follow (s : Store) (last : LastName) (origin : Location) (steps : List Step) : Except Errno Place :=
  walk last linkLimit (Trail.ofLocation s.tree origin) steps

/-- Refuses texts that no lookup accepts. -/
def checkText (p : PathText) : Except IoError Unit :=
  if '\x00' ∈ p then .error .nulInPath
  else if p = [] then .error (.os .noEntry)
  else if pathLimit ≤ Utf8.byteLength p then .error (.os .nameTooLong)
  else .ok ()

/-- Looks a path up from a working directory. -/
def lookup (s : Store) (cwd : Location) (last : LastName) (p : PathText) : Except IoError Place := do
  checkText p
  match s.follow last (start cwd p) (Step.ofPath p) with
  | .ok place => .ok place
  | .error e => .error (.os e)

/-- The entry that a path names, where it stands and what it is. -/
def entryAt? (s : Store) (cwd : Location) (last : LastName) (p : PathText) :
    Except IoError (Location × Entry) := do
  match ← s.lookup cwd last p with
  | .entry loc e => .ok (loc, e)
  | .vacant _ _ => .error (.os .noEntry)

/-- The entry that a path leads to, links followed. -/
def stat? (s : Store) (cwd : Location) (p : PathText) : Except IoError (Location × Entry) :=
  s.entryAt? cwd .follow p

/-- The entry that a path names, a link at the end not followed. -/
def lstat? (s : Store) (cwd : Location) (p : PathText) : Except IoError (Location × Entry) :=
  s.entryAt? cwd .keep p

def isDir (s : Store) (cwd : Location) (p : PathText) : Bool :=
  match s.stat? cwd p with
  | .ok (_, e) => e.isDir
  | .error _ => false

def isFile (s : Store) (cwd : Location) (p : PathText) : Bool :=
  match s.stat? cwd p with
  | .ok (_, e) => e.isFile
  | .error _ => false

/-- The working directory as a path. A directory that has been removed has none. -/
def cwdText? (s : Store) (cwd : Location) : Except IoError PathText :=
  if s.holdsDir cwd then .ok cwd.text else .error (.os .noEntry)

/-! ## Canonical texts -/

end Store

/-- Whether the steps ahead of a name are such that a directory must stand there: `..`, or nothing but
separators and `.` to the end. -/
def Step.needDirectory : List Step → Bool
  | [] => false
  | .enter _ :: _ => false
  | .up :: _ => true
  | .stay :: ahead => ahead.isEmpty || needDirectory ahead
  | .slash :: ahead => ahead.isEmpty || needDirectory ahead

namespace Store

/-- The target of the link under a name, none when something else stands there; the name is looked up by
the text of its location. -/
def readLink? (s : Store) (dir : Location) (n : Name) : Except Errno (Option PathText) :=
  if pathLimit ≤ Utf8.byteLength (Location.text (dir ++ [n])) then .error .nameTooLong
  else if !s.holdsDir dir then .error .notDirectory
  else if nameLimit < Utf8.byteLength n then .error .nameTooLong
  else
    match s.entry? (dir ++ [n]) with
    | none => .error .noEntry
    | some e => .ok e.target?

/-- Looks a name up by the text of its location with a separator behind it. -/
def enterDirectory (s : Store) (dir : Location) (n : Name) : Except Errno Unit :=
  if pathLimit ≤ Utf8.byteLength (Location.text (dir ++ [n])) + 1 then .error .nameTooLong
  else
    match s.readLink? dir n with
    | .error e => .error e
    | .ok _ => if s.holdsDir (dir ++ [n]) then .ok () else .error .notDirectory

/-- The target of the link under a name, none when something else stands there that one can go on from.
Whether it is a directory is asked for by itself, and only where the steps ahead need one. -/
def readOn? (s : Store) (dir : Location) (n : Name) (ahead : List Step) :
    Except Errno (Option PathText) :=
  match s.readLink? dir n with
  | .ok (some target) => .ok (some target)
  | answer =>
    if Step.needDirectory ahead then (s.enterDirectory dir n).map fun _ => none else answer

/-- Takes the steps ahead from a location; `expand` goes on after a link. -/
def resolveWith (s : Store) (expand : Location → PathText → List Step → Except Errno Location) :
    Location → List Step → Except Errno Location
  | loc, [] => .ok loc
  | loc, .stay :: ahead => resolveWith s expand loc ahead
  | loc, .slash :: ahead => resolveWith s expand loc ahead
  | loc, .up :: ahead => resolveWith s expand loc.dropLast ahead
  | loc, .enter n :: ahead =>
    match s.readOn? loc n ahead with
    | .error e => .error e
    | .ok (some target) => expand loc target ahead
    | .ok none => resolveWith s expand (loc ++ [n]) ahead

/-- Takes the steps ahead from a location, following at most `links` links. -/
def resolve (s : Store) : (links : Nat) → Location → List Step → Except Errno Location
  | 0 => resolveWith s fun _ _ _ => .error .tooManyLinks
  | links + 1 => resolveWith s fun loc target ahead =>
    resolve s links (start loc target) (Step.ofPath target ++ ahead)

/-- The location that a path leads to, written out. -/
def canonical? (s : Store) (cwd : Location) (p : PathText) : Except IoError PathText :=
  if '\x00' ∈ p then .error .nulInPath
  else if p = [] then .error (.os .noEntry)
  else
    -- the text that the walk begins with
    match if PathText.isAbsolute p then .ok ['/'] else s.cwdText? cwd with
    | .error cause => .error cause
    | .ok _ =>
      match s.resolve linkLimit (start cwd p) (Step.ofPath p) with
      | .error e => .error (.os e)
      | .ok loc => .ok loc.text

/-! ## Listing and locating -/

/-- The names in the directory that a path leads to, sorted. -/
def list? (s : Store) (cwd : Location) (p : PathText) : Except IoError (List Name) := do
  match ← s.stat? cwd p with
  | (loc, .dir _) => return s.names loc
  | _ => throw (.os .notDirectory)

/-- The directory and name that a path stands for, the name itself not looked up. -/
def locate (s : Store) (cwd : Location) (p : PathText) : Except IoError Slot := do
  checkText p
  let steps := (Step.ofPath p).filter (· ≠ .slash)
  let slash := p.getLast? = some '/'
  -- the directory on the way must be one even where nothing is left to look up in it
  match s.follow .follow (start cwd p) (steps.dropLast ++ [.slash]) with
  | .error e => throw (.os e)
  | .ok (.vacant _ _) => throw (.os .noEntry)
  | .ok (.entry dir _) =>
    match steps.getLast? with
    | some (.enter n) =>
      if nameLimit < Utf8.byteLength n then throw (.os .nameTooLong)
      -- a directory that has been removed takes nothing in
      if !s.holdsDir dir then throw (.os .noEntry)
      return { dir, name? := some n, slash }
    | _ => return { dir, name? := none, slash }

end Store

end LuaTree

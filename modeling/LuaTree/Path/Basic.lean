import LuaTree.Text

/-!
# Path texts

A path is kept as the text that was written, because every message prints it back unchanged. What a
path *means* is its list of components, computed by `components`: repeated and trailing separators
and inner `.` segments leave no trace there, while `..` stays, since only a lookup can tell where it
leads.

The operations follow that split. `join` works on texts; `parent?` cuts a text; `finalName?` and
`relativeTo?` look at components. `ofComponents` writes components as the shortest text.
-/

namespace LuaTree

/-- The name of a directory entry. -/
abbrev Name := List Char

/-- A path as it was written. -/
abbrev PathText := List Char

/-- One step of a path. -/
inductive Component where
  | root -- the leading separator of an absolute path
  | here -- a leading `.`, kept so that `./a` and `a` stay different texts
  | up -- a `..` segment
  | name (n : Name)
  deriving DecidableEq, Inhabited

namespace Component

def text : Component → PathText
  | .root => ['/']
  | .here => ['.']
  | .up => ['.', '.']
  | .name n => n

/-- The component that a segment between separators stands for; empty and `.` segments are none. -/
def ofSegment? (segment : List Char) : Option Component :=
  if segment = [] ∨ segment = ['.'] then none
  else if segment = ['.', '.'] then some .up
  else some (.name segment)

/-- Where a component stands among its kind: absolute before relative, then `.`, `..` and names. -/
def rank : Component → Nat
  | .root => 0
  | .here => 1
  | .up => 2
  | .name _ => 3

/-- The order of components: by kind, names bytewise. -/
def before : Component → Component → Bool
  | .name m, .name n => decide (m < n)
  | a, b => decide (a.rank < b.rank)

end Component

namespace PathText

/-! ## Segments -/

/-- The parts of a text between separators, one more than there are separators. -/
def segments : List Char → List (List Char)
  | [] => [[]]
  | c :: cs =>
    if c = '/' then [] :: segments cs
    else
      match segments cs with
      | [] => [[c]]
      | s :: rest => (c :: s) :: rest

/-- Writes segments with one separator between neighbours. -/
def joinSegments (ss : List (List Char)) : PathText := ['/'].intercalate ss

/-- A segment that is no component: an empty one or `.`. -/
def isDead (segment : List Char) : Bool := segment = [] ∨ segment = ['.']

/-- Drops the segments at the end that are no components. -/
def dropDeadEnd (ss : List (List Char)) : List (List Char) :=
  (ss.reverse.dropWhile isDead).reverse

def isAbsolute : PathText → Bool
  | '/' :: _ => true
  | _ => false

/-- Splits off what a text starts with (a separator, a leading `.`, or nothing) from the segments
after it. Joined again, the two give back the text. -/
def anchor (p : PathText) : PathText × List (List Char) :=
  match p with
  | '/' :: rest => (['/'], segments rest)
  | p =>
    match segments p with
    | ['.'] :: rest => (['.'], [] :: rest)
    | ss => ([], ss)

/-! ## Components -/

def components (p : PathText) : List Component :=
  match p with
  | '/' :: rest => .root :: (segments rest).filterMap Component.ofSegment?
  | p =>
    match segments p with
    | ['.'] :: rest => .here :: rest.filterMap Component.ofSegment?
    | ss => ss.filterMap Component.ofSegment?

/-- The last component, when it is an ordinary name. -/
def finalName? (p : PathText) : Option Name :=
  match (components p).getLast? with
  | some (.name n) => some n
  | _ => none

/-- The text without the separators and `.` segments after its last component. -/
def trimEnd (p : PathText) : PathText :=
  let (lead, body) := anchor p
  lead ++ joinSegments (dropDeadEnd body)

/-- The text up to before the last component; none for the empty text and the root. -/
def parent? (p : PathText) : Option PathText :=
  let (lead, body) := anchor p
  match dropDeadEnd body with
  | [] => if lead = ['.'] then some [] else none
  | live => some (lead ++ joinSegments (dropDeadEnd live.dropLast))

/-- A path and the parents above it, nearest first; the empty text is no parent. Each parent is a
shorter text, so the length of the path bounds their number. -/
def ancestors (p : PathText) : List PathText := climb p.length p
where
  -- at most `n` parents after `p`
  climb : Nat → PathText → List PathText
    | 0, p => [p]
    | n + 1, p =>
      match parent? p with
      | none | some [] => [p]
      | some dir => p :: climb n dir

/-! ## Writing paths -/

/-- Appends a path to a directory's text; an absolute path replaces it. -/
def join (dir p : PathText) : PathText :=
  if isAbsolute p then p
  else if dir = [] ∨ dir.getLast? = some '/' then dir ++ p
  else dir ++ '/' :: p

def ofComponents (cs : List Component) : PathText :=
  cs.foldl (fun p c => join p c.text) []

/-- Takes the components of `base` off the front of a path. -/
def stripComponents : List Component → List Component → Option (List Component)
  | [], cs => some cs
  | b :: bs, c :: cs => if b = c then stripComponents bs cs else none
  | _ :: _, [] => none

/-- The path from `base` to `p`, when `p` starts with the components of `base`. -/
def relativeTo? (base p : PathText) : Option PathText :=
  (stripComponents (components base) (components p)).map ofComponents

/-- Replaces the final name, or appends one when there is none. -/
def withFinalName (p : PathText) (n : Name) : PathText :=
  match finalName? p, parent? p with
  | some _, some dir => join dir n
  | _, _ => join p n

/-- The order of paths: component by component. -/
def before (p q : PathText) : Bool := go (components p) (components q)
where
  go : List Component → List Component → Bool
    | [], [] => false
    | [], _ :: _ => true
    | _ :: _, [] => false
    | a :: as, b :: bs => a.before b || (a == b && go as bs)

end PathText

end LuaTree

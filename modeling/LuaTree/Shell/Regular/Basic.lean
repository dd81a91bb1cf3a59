import LuaTree.Shell.Raw

/-!
# Regular expressions

A regular expression, seen from a place in a text, reaches other places. `Regular.reach` follows several
places at once: the answers stand in the order in which they are preferred, each place only once, so the
work stays within the square of the text's length. Of all places that are reached from the first one from
which any is, the last one ends the match (`Regular.find?`).
-/

namespace LuaTree.Shell

/-- A set of characters. -/
structure CharSet where
  inverted : Bool := false
  ranges : List (Char × Char) -- the first and last characters of its parts
  deriving DecidableEq, Inhabited

def CharSet.holds (s : CharSet) (c : Char) : Bool := (s.ranges.any fun (a, b) => a ≤ c && c ≤ b) != s.inverted

/-- A regular expression. -/
inductive Regular where
  | nothing
  | one (s : CharSet)
  | both (a b : Regular)
  | either (a b : Regular) -- one or the other
  | times (least : Nat) (most? : Option Nat) (a : Regular)
  | group (number : Nat) (a : Regular) -- a part that is remembered under a number
  | again (number : Nat)
  | start
  | finish
  -- the edge of a word: at its start, at its end, at either, or at neither
  | edge (atStart atEnd : Bool)
  deriving Inhabited

namespace Regular

/-- What is searched. -/
structure Subject where
  chars : Array Char
  folds : Bool := false -- whether the case of letters makes no difference
  hasLines : Bool := false -- whether lines begin and end within it
  isRest : Bool := false -- whether it has no beginning

/-- A place that has been reached, and the parts that are remembered: their numbers, starts and ends, latest
first. -/
structure Reached where
  place : Nat
  parts : List (Nat × Nat × Nat) := []
  deriving Inhabited

namespace Subject

def accepts (s : Subject) (set : CharSet) (place : Nat) : Bool :=
  match s.chars[place]? with
  | some c => if s.folds then set.holds c.toLower || set.holds c.toUpper else set.holds c
  | none => false

def inWord (s : Subject) (place : Nat) : Bool := (s.chars[place]?).any Raw.inName

def holdsAt (s : Subject) (place : Nat) (t : Array Char) : Bool :=
  (List.range t.size).all fun k =>
    match s.chars[place + k]?, t[k]? with
    | some a, some b => if s.folds then a.toLower = b.toLower else a = b
    | _, _ => false

end Subject

/-- Keeps the first of those that have reached the same place. -/
def distinct (rs : List Reached) : List Reached :=
  (rs.foldl (fun (seen, kept) r =>
    if seen.testBit r.place then (seen, kept) else (seen ||| (1 <<< r.place), r :: kept)) ((0 : Nat), [])).2.reverse

/-- The places up to which characters of a set stand, from one place on, not beyond those seen before;
the last one first. -/
def run (s : Subject) (set : CharSet) (parts : List (Nat × Nat × Nat)) :
    (fuel : Nat) → (place seen : Nat) → List Reached → List Reached × Nat
  | 0, _, seen, found => (found, seen)
  | fuel + 1, place, seen, found =>
    if seen.testBit place then (found, seen)
    else
      let seen := seen ||| (1 <<< place)
      let found := ⟨place, parts⟩ :: found
      if s.accepts set place then run s set parts fuel (place + 1) seen found else (found, seen)

/-- What is reached from places by steps, however many; more steps are preferred. -/
def closure (step : Reached → List Reached) : (fuel : Nat) → List Reached → (seen : Nat) → List Reached × Nat
  | 0, _, seen => ([], seen)
  | _ + 1, [], seen => ([], seen)
  | fuel + 1, r :: rest, seen =>
    let (found, seen) : List Reached × Nat :=
      if seen.testBit r.place then ([], seen)
      else
        let (found, seen) := closure step fuel (step r) (seen ||| (1 <<< r.place))
        (found ++ [r], seen)
    let (others, seen) := closure step (fuel + 1) rest seen
    (found ++ others, seen)
termination_by fuel rs => (fuel, rs.length)

def within (step : List Reached → List Reached) : (n : Nat) → List Reached → List Reached
  | 0, rs => rs
  | n + 1, rs => distinct (rs.flatMap fun r => within step n ((step [r]).filter (·.place ≠ r.place)) ++ [r])

def repeated (step : List Reached → List Reached) : (n : Nat) → List Reached → List Reached
  | 0, rs => rs
  | n + 1, rs => repeated step n (step rs)

/-- The places that are reached from places, in the order in which they are preferred. -/
def reach (s : Subject) : Regular → List Reached → List Reached
  | .nothing, rs => rs
  | .one set, rs => rs.filterMap fun r => if s.accepts set r.place then some { r with place := r.place + 1 } else none
  | .both a b, rs => b.reach s (a.reach s rs)
  | .either a b, rs => distinct (rs.flatMap fun r => a.reach s [r] ++ b.reach s [r])
  | .times least most? a, rs =>
    let rs := repeated (a.reach s) least rs
    match most?, a with
    | none, .one set =>
      (rs.foldl (fun (found, seen) r =>
        let (more, seen) := run s set r.parts (s.chars.size + 2) r.place seen []
        (found ++ more, seen)) (([] : List Reached), 0)).1
    | none, a => (closure (fun r => a.reach s [r]) (s.chars.size + 3) rs 0).1
    | some n, a => within (a.reach s) (n - least) rs
  | .group number a, rs =>
    distinct (rs.flatMap fun r =>
      (a.reach s [r]).map fun t => { t with parts := (number, r.place, t.place) :: t.parts })
  | .again number, rs =>
    rs.filterMap fun r =>
      match r.parts.find? (·.1 = number) with
      | some (_, a, b) =>
        if s.holdsAt r.place (s.chars.extract a b) then some { r with place := r.place + (b - a) } else none
      | none => none
  | .start, rs =>
    rs.filter fun r =>
      (r.place = 0 && !s.isRest) || (s.hasLines && r.place ≠ 0 && s.chars[r.place - 1]? = some '\n')
  | .finish, rs =>
    rs.filter fun r => r.place = s.chars.size || (s.hasLines && s.chars[r.place]? = some '\n')
  | .edge atStart atEnd, rs =>
    rs.filter fun r =>
      let before := r.place ≠ 0 && s.inWord (r.place - 1)
      let after := s.inWord r.place
      if !atStart && !atEnd then before = after
      else (atStart && !before && after) || (atEnd && before && !after)

/-- The same expression without remembering parts, unless they are asked about. -/
def forgetting : Regular → Regular
  | .both a b => .both a.forgetting b.forgetting
  | .either a b => .either a.forgetting b.forgetting
  | .times m n a => .times m n a.forgetting
  | .group _ a => a.forgetting
  | r => r

/-- Whether parts are asked about. -/
def asks : Regular → Bool
  | .both a b | .either a b => a.asks || b.asks
  | .times _ _ a | .group _ a => a.asks
  | .again _ => true
  | _ => false

/-- The sets one of which accepts the first character of whatever matches; nothing if that is not known. -/
def first? : Regular → Option (List CharSet)
  | .one s => some [s]
  | .both a b =>
    match a with
    | .nothing | .edge _ _ | .start => b.first?
    | a => a.first?
  | .either a b =>
    match a.first?, b.first? with
    | some x, some y => some (x ++ y)
    | _, _ => none
  | .times (_ + 1) _ a | .group _ a => a.first?
  | _ => none

/-- Whether only the beginning can match. -/
def isAnchored : Regular → Bool
  | .start => true
  | .both a _ | .group _ a => a.isAnchored
  | .either a b => a.isAnchored && b.isAnchored
  | _ => false

/-- A match: where it starts and ends, and the parts. -/
structure Match where
  start : Nat
  finish : Nat
  parts : List (Nat × Nat × Nat)
  deriving Inhabited

/-- The text of a part; the whole is part zero. -/
def Match.part (m : Match) (s : Subject) (n : Nat) : Raw :=
  if n = 0 then (s.chars.extract m.start m.finish).toList
  else
    match m.parts.find? (·.1 = n) with
    | some (_, a, b) => (s.chars.extract a b).toList
    | none => []

def matchAt? (r : Regular) (s : Subject) (place : Nat) : Option Match :=
  match r.reach s [⟨place, []⟩] with
  | [] => none
  | t :: ts =>
    let best := ts.foldl (fun best t => if best.place < t.place then t else best) t
    some ⟨place, best.place, best.parts⟩

/-- The first match that starts at a place or behind it. -/
def findFrom? (r : Regular) (s : Subject) (mayStart : Nat → Bool) : (fuel : Nat) → (place : Nat) → Option Match
  | 0, _ => none
  | fuel + 1, place =>
    if s.chars.size < place then none
    else
      match if mayStart place then r.matchAt? s place else none with
      | some m => some m
      | none => findFrom? r s mayStart fuel (place + 1)

/-- The first and longest match at a place or behind it. -/
def find? (r : Regular) (s : Subject) (place : Nat := 0) : Option Match :=
  let mayStart : Nat → Bool :=
    match r.first? with
    | some sets => fun p => sets.any fun set => s.accepts set p
    | none => fun _ => true
  if r.isAnchored ∧ !s.hasLines then if place = 0 then r.matchAt? s 0 else none
  else findFrom? r s mayStart (s.chars.size + 2 - place) place

def occurs (r : Regular) (s : Subject) : Bool :=
  if r.asks then (r.find? s).isSome
  else
    let places :=
      match r.first? with
      | some sets => (List.range (s.chars.size + 1)).filter fun p => sets.any fun set => s.accepts set p
      | none => List.range (s.chars.size + 1)
    !(r.forgetting.reach s (places.map fun p => ⟨p, []⟩)).isEmpty

/-- Whether the whole matches, from its beginning to its end. -/
def spans (r : Regular) (s : Subject) : Bool :=
  (r.reach s [⟨0, []⟩]).any fun t => t.place = s.chars.size

end Regular

end LuaTree.Shell

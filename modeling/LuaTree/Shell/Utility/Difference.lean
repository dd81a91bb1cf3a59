import LuaTree.Shell.Utility.Basic

/-!
# Differences between texts

Which lines of one text have no counterpart in another, as few of them as possible, and how such a difference
is written down.

Two texts are two ways through a grid: a step to the right leaves a line of the left text, a step down a line of
the right one, and where the lines are equal a slanting step leaves both. `middle` looks for a place on a way
with as few straight steps as possible, from both ends at once, and `unmatched` divides the texts there.
-/

namespace LuaTree.Shell.Utility.Difference

/-- A line of a text. -/
structure Line where
  text : Raw
  isComplete : Bool := true
  key : Raw
  deriving Inhabited

/-- The lines of a text; `key` tells what a line is compared by. -/
def linesOf (key : (isComplete : Bool) → Raw → Raw) (t : Raw) : Array Line :=
  let (complete, rest) := splitLines t
  let whole := complete.map fun l => ({ text := l, key := key true l } : Line)
  let last : List Line := if rest = [] then [] else [{ text := rest, isComplete := false, key := key false rest }]
  (whole ++ last).toArray

/-! ## The shortest way -/

/-- A part of two texts: lines from the first number up to the second on either side. -/
structure Part where
  left : Int
  leftEnd : Int
  right : Int
  rightEnd : Int

def agree (a b : Array Raw) (x y : Int) : Bool := 0 ≤ x && 0 ≤ y && a[x.toNat]? == b[y.toNat]?

/-- Goes on as long as lines agree. -/
def forth (a b : Array Raw) (p : Part) : (fuel : Nat) → (x y : Int) → Int
  | 0, x, _ => x
  | fuel + 1, x, y =>
    if x < p.leftEnd && y < p.rightEnd && agree a b x y then forth a b p fuel (x + 1) (y + 1) else x

/-- Goes back as long as lines agree. -/
def back (a b : Array Raw) (p : Part) : (fuel : Nat) → (x y : Int) → Int
  | 0, x, _ => x
  | fuel + 1, x, y =>
    if p.left < x && p.right < y && agree a b (x - 1) (y - 1) then back a b p fuel (x - 1) (y - 1) else x

/-- How far the searches have come on each slanting line of the grid. -/
structure Search where
  forths : FiniteMap Int Int -- the furthest places that are reached from the beginning
  backs : FiniteMap Int Int -- the furthest places that are reached from the end
  forthLow : Int -- the lowest slanting line that is reached from the beginning
  forthHigh : Int
  backLow : Int -- the lowest slanting line that is reached from the end
  backHigh : Int

def downBy2 (high low : Int) : List Int :=
  (List.range ((high - low) / 2 + 1).toNat).map fun k : Nat => high - 2 * (k : Int)

/-- One more step from the beginning; fails with the place where the searches meet. -/
def Search.advance (a b : Array Raw) (p : Part) (isOdd : Bool) (s : Search) : Except (Int × Int) Search := do
  let (low, high) := (p.left - p.rightEnd, p.leftEnd - p.right)
  let s := if low < s.forthLow then
      { s with forthLow := s.forthLow - 1, forths := s.forths.insert (s.forthLow - 2) (-1) }
    else { s with forthLow := s.forthLow + 1 }
  let s := if s.forthHigh < high then
      { s with forthHigh := s.forthHigh + 1, forths := s.forths.insert (s.forthHigh + 2) (-1) }
    else { s with forthHigh := s.forthHigh - 1 }
  (downBy2 s.forthHigh s.forthLow).foldlM (fun s d => do
    let low := (s.forths.get? (d - 1)).getD (-1)
    let high := (s.forths.get? (d + 1)).getD (-1)
    let start := if low < high then high else low + 1
    let x := forth a b p (a.size + 1) start (start - d)
    let met := isOdd && s.backLow ≤ d && d ≤ s.backHigh && (s.backs.get? d).any (· ≤ x)
    if met then .error (x, x - d) else .ok { s with forths := s.forths.insert d x }) s

/-- One more step from the end; fails with the place where the searches meet. -/
def Search.retreat (a b : Array Raw) (p : Part) (isOdd : Bool) (s : Search) : Except (Int × Int) Search := do
  let (low, high) := (p.left - p.rightEnd, p.leftEnd - p.right)
  let far : Int := a.size + b.size + 1
  let s := if low < s.backLow then
      { s with backLow := s.backLow - 1, backs := s.backs.insert (s.backLow - 2) far }
    else { s with backLow := s.backLow + 1 }
  let s := if s.backHigh < high then
      { s with backHigh := s.backHigh + 1, backs := s.backs.insert (s.backHigh + 2) far }
    else { s with backHigh := s.backHigh - 1 }
  (downBy2 s.backHigh s.backLow).foldlM (fun s d => do
    let low := (s.backs.get? (d - 1)).getD far
    let high := (s.backs.get? (d + 1)).getD far
    let start := if low < high then low else high - 1
    let x := back a b p (a.size + 1) start (start - d)
    let met := !isOdd && s.forthLow ≤ d && d ≤ s.forthHigh && (s.forths.get? d).any (x ≤ ·)
    if met then .error (x, x - d) else .ok { s with backs := s.backs.insert d x }) s

/-- Takes steps from both ends in turn until the searches meet. -/
def Search.run (a b : Array Raw) (p : Part) (isOdd : Bool) : (fuel : Nat) → Search → Int × Int
  | 0, _ => (p.left, p.right)
  | fuel + 1, s =>
    match s.advance a b p isOdd >>= Search.retreat a b p isOdd with
    | .error place => place
    | .ok s => s.run a b p isOdd fuel

/-- A place on a shortest way through a part. -/
def middle (a b : Array Raw) (p : Part) : Int × Int :=
  let (first, last) := (p.left - p.right, p.leftEnd - p.rightEnd)
  Search.run a b p ((first - last) % 2 != 0) (a.size + b.size + 2)
    { forths := FiniteMap.empty.insert first p.left, backs := FiniteMap.empty.insert last p.leftEnd
      forthLow := first, forthHigh := first, backLow := last, backHigh := last }

/-- Which lines have no counterpart. -/
structure Marks where
  left : Array Bool
  right : Array Bool

def marked (marks : Array Bool) (first last : Int) : Array Bool :=
  (List.range (last - first).toNat).foldl (fun m k => m.setIfInBounds (first.toNat + k) true) marks

def unmatched (a b : Array Raw) : (fuel : Nat) → Part → Marks → Marks
  | 0, _, m => m
  | fuel + 1, p, m =>
    let x := forth a b p (a.size + 1) p.left p.right
    let p := { p with left := x, right := p.right + (x - p.left) }
    let x := back a b p (a.size + 1) p.leftEnd p.rightEnd
    let p := { p with leftEnd := x, rightEnd := p.rightEnd - (p.leftEnd - x) }
    if p.left = p.leftEnd then { m with right := marked m.right p.right p.rightEnd }
    else if p.right = p.rightEnd then { m with left := marked m.left p.left p.leftEnd }
    else
      let (x, y) := middle a b p
      let m := unmatched a b fuel { p with leftEnd := x, rightEnd := y } m
      unmatched a b fuel { p with left := x, right := y } m

/-! ## Stretches of lines without counterpart -/

def pastMarked (m : Array Bool) : (fuel : Nat) → Nat → Nat
  | 0, i => i
  | fuel + 1, i => if m.getD i false then pastMarked m fuel (i + 1) else i

/-- Goes back over marked lines. -/
def beforeMarked (m : Array Bool) : (fuel : Nat) → Nat → Nat
  | 0, i => i
  | fuel + 1, i => if 0 < i && m.getD (i - 1) false then beforeMarked m fuel (i - 1) else i

/-- A stretch of marked lines that is being moved, and the place on the other side that it goes with. -/
structure Stretch where
  marks : Array Bool
  first : Nat
  last : Nat
  other : Nat
  -- the last end at which the stretch goes with a stretch on the other side
  fitting? : Option Nat := none

namespace Stretch

/-- Moves back by a line, over stretches that are met. -/
def stepBack (others : Array Bool) (s : Stretch) : Stretch :=
  let marks := (s.marks.setIfInBounds (s.first - 1) true).setIfInBounds (s.last - 1) false
  { s with
    marks, last := s.last - 1
    first := beforeMarked marks marks.size (s.first - 1)
    other := beforeMarked others others.size s.other - 1 }

/-- Moves back as far as the lines allow. -/
def moveBack (keys : Array Raw) (others : Array Bool) : (fuel : Nat) → Stretch → Stretch
  | 0, s => s
  | fuel + 1, s =>
    if 0 < s.first && keys[s.first - 1]? == keys[s.last - 1]? then moveBack keys others fuel (s.stepBack others)
    else s

/-- Moves forward as far as the lines allow. -/
def moveForward (keys : Array Raw) (others : Array Bool) : (fuel : Nat) → Stretch → Stretch
  | 0, s => s
  | fuel + 1, s =>
    if s.last < keys.size && keys[s.first]? == keys[s.last]? then
      let marks := (s.marks.setIfInBounds s.first false).setIfInBounds s.last true
      let last := pastMarked marks marks.size (s.last + 1)
      let other := pastMarked others others.size (s.other + 1)
      let fitting? := if s.other + 1 < other then some last else s.fitting?
      moveForward keys others fuel { marks, first := s.first + 1, last, other, fitting? }
    else s

/-- Moves to and fro until no other stretch is met any more. -/
def settle (keys : Array Raw) (others : Array Bool) : (fuel : Nat) → Stretch → Stretch
  | 0, s => s
  | fuel + 1, s =>
    let size := s.last - s.first
    let s := s.moveBack keys others keys.size
    let fitting? := if 0 < s.other && others.getD (s.other - 1) false then some s.last else none
    let s := moveForward keys others keys.size { s with fitting? }
    if s.last - s.first = size then s else s.settle keys others fuel

/-- Moves back to where the stretch goes with one on the other side. -/
def fit (others : Array Bool) (target : Nat) : (fuel : Nat) → Stretch → Stretch
  | 0, s => s
  | fuel + 1, s => if target < s.last then (s.stepBack others).fit others target fuel else s

end Stretch

/-- Moves all stretches as far down as the lines allow, or to where they go with those on the other side; `i`
and `j` are the places up to which that is done. -/
def settled (keys : Array Raw) (others : Array Bool) : (fuel : Nat) → (i j : Nat) → Array Bool → Array Bool
  | 0, _, _, marks => marks
  | fuel + 1, i, j, marks =>
    if keys.size ≤ i then marks
    else if !(marks.getD i false) then settled keys others fuel (i + 1) (pastMarked others others.size j + 1) marks
    else
      let last := pastMarked marks marks.size i
      let s : Stretch := { marks, first := i, last, other := pastMarked others others.size j }
      let s := s.settle keys others keys.size
      let s := s.fit others (s.fitting?.getD keys.size) keys.size
      settled keys others fuel s.last s.other s.marks

/-- Some lines on the left in whose place there are some on the right. -/
structure Hunk where
  left : Nat
  leftCount : Nat
  right : Nat
  rightCount : Nat
  deriving Inhabited

/-- The stretches of marked lines on both sides that belong together. -/
def hunksFrom (m : Marks) : (fuel : Nat) → (i j : Nat) → List Hunk
  | 0, _, _ => []
  | fuel + 1, i, j =>
    if m.left.size ≤ i ∧ m.right.size ≤ j then []
    else
      let last := pastMarked m.left m.left.size i
      let other := pastMarked m.right m.right.size j
      let more := hunksFrom m fuel (last + 1) (other + 1)
      if i < last ∨ j < other then
        { left := i, leftCount := last - i, right := j, rightCount := other - j } :: more
      else more

/-- How many lines two texts have in common at the beginning. -/
def commonCount : List Raw → List Raw → Nat
  | a :: as, b :: bs => if a = b then commonCount as bs + 1 else 0
  | _, _ => 0

/-- In what two texts differ. -/
def hunks (left right : Array Line) : List Hunk :=
  let (a, b) := (left.toList.map Line.key, right.toList.map Line.key)
  let front := commonCount a b
  let (a, b) := (a.drop front, b.drop front)
  let rear := commonCount a.reverse b.reverse
  let (a, b) := (a.take (a.length - rear), b.take (b.length - rear))
  -- lines that the other text does not have at all need not be looked at
  let known (t u : List Raw) : Array (Raw × Nat) := (t.zipIdx.filter fun (l, _) => u.contains l).toArray
  let (p, q) := (known a b, known b a)
  let found := unmatched (p.map Prod.fst) (q.map Prod.fst) (p.size + q.size + 2)
    { left := 0, leftEnd := p.size, right := 0, rightEnd := q.size }
    { left := Array.replicate p.size false, right := Array.replicate q.size false }
  let marks (size : Nat) (k : Array (Raw × Nat)) (m : Array Bool) : Array Bool :=
    (k.zip m).foldl (fun all ((_, i), isMarked) => all.setIfInBounds i isMarked) (Array.replicate size true)
  let lefts := marks a.length p found.left
  let rights := marks b.length q found.right
  let rounds := a.length + b.length + 2
  let lefts := settled a.toArray rights rounds 0 0 lefts
  let rights := settled b.toArray lefts rounds 0 0 rights
  (hunksFrom { left := lefts, right := rights } rounds 0 0).map fun h =>
    { h with left := h.left + front, right := h.right + front }

/-! ## Written differences -/

def Line.shown (before : Raw) (l : Line) : Raw :=
  before ++ l.text ++ (if l.isComplete then "\n" else "\n\\ No newline at end of file\n").toList

def shownLines (before : Raw) (ls : Array Line) (first count : Nat) : Raw :=
  ((ls.toList.drop first).take count).flatMap (Line.shown before)

/-- The numbers of the first and the last of some lines, or of the line before if there are none. -/
def range (first count : Nat) : Raw :=
  if 1 < count then Raw.ofNat (first + 1) ++ ',' :: Raw.ofNat (first + count) else Raw.ofNat (first + count)

def Hunk.plain (left right : Array Line) (h : Hunk) : Raw :=
  let letter := if h.leftCount = 0 then 'a' else if h.rightCount = 0 then 'd' else 'c'
  range h.left h.leftCount ++ letter :: range h.right h.rightCount ++ '\n' ::
    shownLines "< ".toList left h.left h.leftCount
    ++ (if letter = 'c' then "---\n".toList else [])
    ++ shownLines "> ".toList right h.right h.rightCount

/-- Puts differences together between which there are few lines. -/
def grouped (context : Nat) : List Hunk → List (List Hunk)
  | [] => []
  | h :: rest =>
    match grouped context rest with
    | (next :: more) :: groups =>
      if next.left - (h.left + h.leftCount) ≤ 2 * context then (h :: next :: more) :: groups
      else [h] :: (next :: more) :: groups
    | groups => [h] :: groups

/-- What a group of differences covers together with the lines around it. -/
def covered (context : Nat) (left right : Array Line) (g : List Hunk) : Hunk :=
  let first := g.headD default
  let last := g.getLastD default
  let before := min context first.left
  let ends := min left.size (last.left + last.leftCount + context)
  let rightEnds := min right.size (last.right + last.rightCount + context)
  { left := first.left - before, leftCount := ends - (first.left - before)
    right := first.right - before, rightCount := rightEnds - (first.right - before) }

/-- A group of differences with the lines around it, both sides in one. -/
def unified (context : Nat) (left right : Array Line) (g : List Hunk) : Raw :=
  let whole := covered context left right g
  let side (first count : Nat) : Raw :=
    if count = 1 then Raw.ofNat (first + 1)
    else Raw.ofNat (if count = 0 then first else first + 1) ++ ',' :: Raw.ofNat count
  let (text, i) := g.foldl (fun ((text, i) : Raw × Nat) h =>
    (text ++ shownLines [' '] left i (h.left - i) ++ shownLines ['-'] left h.left h.leftCount
      ++ shownLines ['+'] right h.right h.rightCount, h.left + h.leftCount)) ([], whole.left)
  "@@ -".toList ++ side whole.left whole.leftCount ++ " +".toList ++ side whole.right whole.rightCount
    ++ " @@\n".toList ++ text ++ shownLines [' '] left i (whole.left + whole.leftCount - i)

/-- A group of differences with the lines around it, one side behind the other. -/
def inContext (context : Nat) (left right : Array Line) (g : List Hunk) : Raw :=
  let whole := covered context left right g
  let side (ls : Array Line) (first count : Nat) (mark : Char) (place : Hunk → Nat × Nat)
      (isBoth : Hunk → Bool) : Raw :=
    if g.all fun h => (place h).2 = 0 then []
    else
      let (text, i) := g.foldl (fun ((text, i) : Raw × Nat) h =>
        let (start, n) := place h
        (text ++ shownLines "  ".toList ls i (start - i)
          ++ shownLines [if isBoth h then '!' else mark, ' '] ls start n, start + n)) ([], first)
      text ++ shownLines "  ".toList ls i (first + count - i)
  let both (h : Hunk) : Bool := h.leftCount ≠ 0 && h.rightCount ≠ 0
  "***************\n*** ".toList ++ range whole.left whole.leftCount ++ " ****\n".toList
    ++ side left whole.left whole.leftCount '-' (fun h => (h.left, h.leftCount)) both
    ++ "--- ".toList ++ range whole.right whole.rightCount ++ " ----\n".toList
    ++ side right whole.right whole.rightCount '+' (fun h => (h.right, h.rightCount)) both

/-! ### Side by side -/

/-- Where the columns of a text in two columns stand. -/
structure Columns where
  half : Nat
  second : Nat
  hidesEqual : Bool := false -- whether lines that agree are left out

def Columns.ofWidth (width : Nat) (hidesEqual : Bool) : Columns :=
  let gap := 8 + 3
  let offset := width / 2 + gap / 2 + (if width % 2 = 1 ∧ gap % 2 = 1 then 1 else 0)
  let offset := offset - offset % 8
  let half := min (offset - 3) (width - offset)
  { half, second := if half = 0 then width else offset, hidesEqual }

def blanks : (fuel : Nat) → (start target : Nat) → Raw
  | 0, _, _ => []
  | fuel + 1, start, target =>
    let stop := start + 8 - start % 8
    if stop ≤ target then '\t' :: blanks fuel stop target else List.replicate (target - start) ' '

/-- As much of a line as there is room for, and the column that it ends in; tabs are laid out from `start`. -/
def halfLine (start room : Nat) (t : Raw) : Raw × Nat :=
  let (text, column, _) := t.foldl (fun ((text, column, inside) : Raw × Nat × Nat) c =>
    if c = '\t' then
      let step := 8 - inside % 8
      if inside + step ≤ room then
        -- where the line starts at a stop, a tab does as well
        let fill := if start % 8 = 0 then ['\t'] else List.replicate step ' '
        (text ++ fill, inside + step, inside + step)
      else (text, column, inside + step)
    else if inside < room then (text ++ [c], inside + 1, inside + 1)
    else (text, column, inside + 1)) ([], 0, 0)
  (text, start + column)

def Columns.row (k : Columns) (left? : Option Line) (mark : Char) (right? : Option Line) : Raw :=
  let (leftText, column) := (left?.map fun l => halfLine 0 k.half l.text).getD ([], 0)
  let leftEnds := left?.any Line.isComplete
  let (gutter, column) :=
    if mark = ' ' then ([], column)
    else
      let place := (k.half + k.second - 1) / 2
      let mark := match right? with
        | some r => if mark = '|' ∧ leftEnds ≠ r.isComplete then (if leftEnds then '/' else '\\') else mark
        | none => mark
      (blanks (place + 1) column place ++ [mark], max column place + 1)
  let rightText :=
    match right? with
    | none => []
    | some r =>
      if r.text = [] then []
      else blanks (k.second + 1) column k.second ++ (halfLine k.second k.half r.text).1
  leftText ++ gutter ++ rightText ++ if leftEnds || right?.any Line.isComplete then ['\n'] else []

def Columns.text (k : Columns) (left right : Array Line) (hs : List Hunk) : Raw :=
  let equal (i j count : Nat) : Raw :=
    if k.hidesEqual then []
    else (List.range count).flatMap fun n => k.row left[i + n]? ' ' right[j + n]?
  let (text, i, j) := hs.foldl (fun ((text, i, j) : Raw × Nat × Nat) h =>
    let paired := min h.leftCount h.rightCount
    let changed := (List.range paired).flatMap fun n => k.row left[h.left + n]? '|' right[h.right + n]?
    let gone := (List.range (h.leftCount - paired)).flatMap fun n =>
      k.row left[h.left + paired + n]? '<' none
    let added := (List.range (h.rightCount - paired)).flatMap fun n =>
      k.row none '>' right[h.right + paired + n]?
    (text ++ equal i j (h.left - i) ++ changed ++ gone ++ added,
      h.left + h.leftCount, h.right + h.rightCount)) ([], 0, 0)
  text ++ equal i j (left.size - i)

end LuaTree.Shell.Utility.Difference

import LuaTree.Shell.Utility.Basic

/-!
# Orders and factors

Putting things in an order in which what comes before others stands before them (`tsort`), and the prime factors
of numbers (`factor`).
-/

namespace LuaTree.Shell.Utility

open Run

/-! ## Before and after -/

/-- Things, some of which come before others. -/
structure Precedence where
  items : List Raw -- the things that are still to be put in order, by name
  pairs : List (Raw × Raw) -- what comes right before what, the latest first

namespace Precedence

/-- Before how many pairs a thing has to wait. -/
def waits (p : Precedence) (x : Raw) : Nat := p.pairs.countP (·.2 = x)

/-- Puts in order what can be, beginning with what is ready; what is left waits for itself. -/
def order : (fuel : Nat) → Precedence → (ready : List Raw) → List Raw × Precedence
  | 0, p, _ => ([], p)
  | _ + 1, p, [] => ([], p)
  | fuel + 1, p, x :: ready =>
    let (mine, others) := p.pairs.partition (·.1 = x)
    let freed := mine.foldl (fun ((q, free) : List (Raw × Raw) × List Raw) pair =>
      let q := q.erase pair
      (q, if q.any (·.2 = pair.2) then free else free ++ [pair.2])) (p.pairs, [])
    let (xs, left) := order fuel { items := p.items.erase x, pairs := others } (ready ++ freed.2)
    (x :: xs, left)

/-- Goes through the things and notes from which thing a thing was come to, until one is met again that was come
to from another; answers with
the loop and the pair that closes it. -/
def searched (p : Precedence) : (fuel : Nat) → (way : List Raw) → List Raw → Option (List Raw × (Raw × Raw))
  | 0, _, _ => none
  | _ + 1, [], [] => none
  | fuel + 1, way, [] => searched p fuel way p.items
  | fuel + 1, way, k :: rest =>
    if p.waits k = 0 then searched p fuel way rest
    else
      match way with
      | [] => searched p fuel [k] rest
      | last :: _ =>
        if p.pairs.contains (k, last) then
          if way.dropLast.contains k then
            let members := way.takeWhile (· ≠ k) ++ [k]
            some (members, (k, last))
          else searched p fuel (k :: way) rest
        else searched p fuel way rest

/-- A loop, and the pair that closes it. -/
def loop? (p : Precedence) : Option (List Raw × (Raw × Raw)) :=
  p.searched ((p.items.length + 2) * (p.items.length + 2)) [] p.items

end Precedence

/-- The things of an order, and of those that are left when loops are broken one after the other. -/
def sortedOut (name file : Raw) : (fuel : Nat) → Precedence → (status : Nat) → Run Nat
  | 0, _, status => return status
  | fuel + 1, p, status => do
    let ready := (p.items.mergeSort fun a b => !decide (b < a)).filter (p.waits · = 0)
    let (xs, left) := p.order (p.items.length + p.pairs.length + 2) ready
    putText (unlines xs)
    if left.items = [] then return status
    complain name (file ++ ": input contains a loop:".toList)
    match ({ left with items := left.items.mergeSort fun a b => !decide (b < a) } : Precedence).loop? with
    | none => return 1
    | some (members, closing) =>
      for x in members do complain name x
      sortedOut name file fuel { left with pairs := left.pairs.erase closing } 1

/-- `tsort`: puts things in an order in which what comes before others stands before them. -/
def tsort : Utility := withOptions "" "" [] fun name o => do
  if let _ :: extra :: _ := o.operands then return ← complainExtra name extra
  let file := o.operands.headD ['-']
  match ← inputOf file with
  | .error e =>
    complainFile name file e
    return 1
  | .ok data =>
    let text := Raw.ofBytes data
    let words := ((text.map fun c => if c = '\n' ∨ c = '\t' then ' ' else c).splitOn ' ').filter (· ≠ [])
    if words.length % 2 = 1 then
      complain name (Quote.ifNeeded true file ++ ": input contains an odd number of tokens".toList)
      return 1
    let rec paired : List Raw → List (Raw × Raw)
      | a :: b :: rest => (a, b) :: paired rest
      | _ => []
    let pairs := (paired words).filter fun p => p.1 ≠ p.2
    sortedOut name file (words.length + 2) { items := words.eraseDups, pairs := pairs.reverse } 0

/-! ## Prime factors -/

/-- The prime factors of a number from a possible factor on; a number that is left when the fuel is used up
counts as a prime. -/
def factorsFrom : (fuel : Nat) → (d n : Nat) → List Nat
  | 0, _, n => if n = 1 then [] else [n]
  | fuel + 1, d, n =>
    if n < d * d then (if n = 1 then [] else [n])
    else if n % d = 0 then d :: factorsFrom fuel d (n / d)
    else factorsFrom fuel (if d = 2 then 3 else d + 2) n

def factorsOf (n : Nat) : List Nat := if n = 0 then [] else factorsFrom 3000000 2 n

def powersOf (ps : List Nat) : List (Nat × Nat) :=
  ps.eraseDups.map fun p => (p, ps.count p)

/-- `factor`: writes the prime factors of numbers. -/
def factor : Utility := withOptions "h" "" [("exponents", 'h')] fun name o => do
  let tell (t : Raw) : Run Bool := do
    let digits := match t.dropWhile Char.isWhitespace with
      | '+' :: rest => rest
      | t => t
    match Raw.nat? digits with
    | none =>
      complain name (Quote.shown t ++ " is not a valid positive integer".toList)
      return false
    | some n =>
      let ps := factorsOf n
      let shown := if o.has 'h' then
          (powersOf ps).map fun (p, k) =>
            Raw.ofNat p ++ (if 1 < k then '^' :: Raw.ofNat k else [])
        else ps.map Raw.ofNat
      putLine (Raw.ofNat n ++ ':' :: shown.flatMap fun t => ' ' :: t)
      return true
  if o.operands ≠ [] then forEach o.operands tell
  else
    match ← readAll 0 with
    | .error e =>
      complain name ("error reading input: ".toList ++ e.text.toList)
      return 1
    | .ok data =>
      let text := (Raw.ofBytes data).map fun c => if c.isWhitespace then ' ' else c
      forEach ((text.splitOn ' ').filter (· ≠ [])) tell

end LuaTree.Shell.Utility

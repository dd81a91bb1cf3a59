import LuaTree.Shell.Format
import LuaTree.Shell.Utility.Streams

/-!
# Sequences of numbers

`seq` writes numbers in equal steps. Numbers are decimal fractions, counted in units of their last place, so
nothing is ever rounded.
-/

namespace LuaTree.Shell.Utility

open Run

/-- A decimal fraction: a number of units, of which there are some power of ten to one. -/
structure Fraction where
  units : Int
  places : Nat -- how many digits stand behind the point
  deriving Inhabited

namespace Fraction

def ten (n : Nat) : Nat := (List.replicate n 10).foldl (· * ·) 1

/-- The number of units if there are more digits behind the point. -/
def scaled (f : Fraction) (places : Nat) : Int := f.units * ten (places - f.places)

def read? (t : Raw) : Option Fraction := do
  let t := t.dropWhile Char.isWhitespace
  let (negative, t) := match t with
    | '-' :: t => (true, t)
    | '+' :: t => (false, t)
    | t => (false, t)
  let signed (n : Nat) : Int := if negative then -n else n
  match t with
  | '0' :: 'x' :: ds | '0' :: 'X' :: ds =>
    let value (c : Char) : Option Nat := Decimal.hexValue c
    if ds = [] then none
    else some ⟨signed ((← ds.mapM value).foldl (fun n d => n * 16 + d) 0), 0⟩
  | _ =>
    let whole := t.takeWhile Char.isDigit
    let t := t.drop whole.length
    let (part, t) := match t with
      | '.' :: t => (t.takeWhile Char.isDigit, t.dropWhile Char.isDigit)
      | t => ([], t)
    let n ← Raw.nat? (whole ++ part)
    match t with
    | [] => some ⟨signed n, part.length⟩
    | e :: t =>
      if e ≠ 'e' ∧ e ≠ 'E' then none
      else
        match ← Raw.int? t with
        | .ofNat k =>
          if k ≤ part.length then some ⟨signed n, part.length - k⟩
          else some ⟨signed (n * ten (k - part.length)), 0⟩
        | .negSucc k => some ⟨signed n, part.length + k + 1⟩

def write (units : Int) (places : Nat) : Raw :=
  let digits := Raw.ofNat units.natAbs
  let digits := List.replicate (places + 1 - digits.length) '0' ++ digits
  let whole := digits.take (digits.length - places)
  (if units < 0 then ['-'] else []) ++ whole
    ++ if places = 0 then [] else '.' :: digits.drop (digits.length - places)

end Fraction

/-- The texts before and behind the only conversion of a format, and the conversion. -/
def formatParts (format : Raw) : Except Raw Unit := do
  let quoted := Quote.shown format
  let rec find : (fuel : Nat) → Raw → Option Raw
    | 0, _ | _, [] => none
    | fuel + 1, '%' :: '%' :: rest => find fuel rest
    | _ + 1, '%' :: rest => some rest
    | fuel + 1, _ :: rest => find fuel rest
  match find (format.length + 1) format with
  | none => throw ("format ".toList ++ quoted ++ " has no % directive".toList)
  | some rest =>
    let rest := rest.dropWhile "-+#0 '".toList.contains
    let rest := rest.dropWhile Char.isDigit
    let rest := match rest with
      | '.' :: rest => rest.dropWhile Char.isDigit
      | rest => rest
    match rest with
    | [] => throw ("format ".toList ++ quoted ++ " ends in %".toList)
    | c :: rest =>
      if !"aefgAEFG".toList.contains c then
        throw ("format ".toList ++ quoted ++ " has unknown %".toList ++ [c] ++ " directive".toList)
      match find (rest.length + 1) rest with
      | some _ => throw ("format ".toList ++ quoted ++ " has too many % directives".toList)
      | none => return ()

/-- Whether an argument begins like a number below zero. -/
def beginsNegative : Raw → Bool
  | '-' :: c :: _ => c.isDigit || c = '.'
  | _ => false

/-- The arguments with the end of the options marked where a number below zero comes first: it is no option. -/
def withNumbersMarked : List Raw → List Raw
  | [] => []
  | a :: rest =>
    let takesNext := ['f', 's'].any (fun c => a.drop 1 = c :: [] ∨ a.drop 1 = ['w', c])
      || (3 ≤ a.length && ["--format".toList, "--separator".toList].any a.isPrefixOf)
    if beginsNegative a then ['-', '-'] :: a :: rest
    else if a.head? ≠ some '-' ∨ a = ['-'] ∨ a = ['-', '-'] then a :: rest
    else match takesNext, rest with
      | true, value :: rest => a :: value :: withNumbersMarked rest
      | _, rest => a :: withNumbersMarked rest

/-- `seq`: writes numbers. -/
def seq : Utility := fun name arguments => do
  (withTable { flags := "w", valued := "fs", inOrder := true
               long := [("equal-width", 'w'), ("format", 'f'), ("separator", 's')] } fun name o => do
    match o.operands with
    | [] => return ← complainMissing name
    | _ :: _ :: _ :: d :: _ => return ← complainExtra name d
    | _ => pure ()
    let numbers := o.operands.map Fraction.read?
    match o.operands.find? fun a => (Fraction.read? a).isNone with
    | some a => return ← complainUsage name ("invalid floating point argument: ".toList ++ Quote.shown a)
    | none => pure ()
    let one : Fraction := ⟨1, 0⟩
    let (first, step, last) := match numbers.map (·.getD one) with
      | [last] => (one, one, last)
      | [first, last] => (first, one, last)
      | first :: step :: last :: _ => (first, step, last)
      | [] => (one, one, one)
    if step.units = 0 then
      return ← complainUsage name ("invalid Zero increment value: ".toList
        ++ Quote.shown (o.operands.getD 1 []))
    let shownPlaces := max first.places step.places
    let places := max shownPlaces last.places
    let (a, d, z) := (first.scaled places, step.scaled places, last.scaled places)
    let many := ((z - a) / d + 1).toNat
    if many = 0 then return 0
    let text (n : Int) : Raw := Fraction.write (n / Fraction.ten (places - shownPlaces)) shownPlaces
    let final := a + d * ((many : Int) - 1)
    let width := max (text a).length (text final).length
    let shown (n : Int) : Raw :=
      match o.value? 'f' with
      | some format => (Format.printf .utility id format [Fraction.write n places]).1
      | none =>
        let t := text n
        if !o.has 'w' then t
        else if n < 0 then '-' :: List.replicate (width - t.length) '0' ++ t.drop 1
        else List.replicate (width - t.length) '0' ++ t
    match (o.value? 'f').map formatParts with
    | some (.error message) =>
      complain name message
      return 1
    | _ => pure ()
    let separator := (o.value? 's').getD ['\n']
    -- in portions, since nobody may want all of them
    let portion := 4096
    for k in List.range (many / portion + 1) do
      let begun := k * portion
      let ns := (List.range (min portion (many - begun))).map fun (i : Nat) => a + d * ((begun + i : Nat) : Int)
      if ns ≠ [] then
        putText ((if k = 0 then [] else separator) ++ separator.intercalate (ns.map shown))
    putText ['\n']
    return 0) name (withNumbersMarked arguments)

end LuaTree.Shell.Utility

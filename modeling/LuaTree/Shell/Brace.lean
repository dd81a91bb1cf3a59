import LuaTree.Shell.Command

/-!
# Braces

Words of the extended dialect can stand for several words: `{a,b}` for its alternatives, `{1..3}` for what
lies between its ends. Only characters that are not quoted take part; everything else is carried along.
-/

namespace LuaTree.Shell.Brace

/-- A character of a word, or a part of it that takes no part in this. -/
inductive Atom where
  | char (c : Char)
  | piece (p : Piece)
  deriving Inhabited

def atoms (w : Word) : List Atom :=
  w.flatMap fun
    | .text false t => t.map .char
    | p => [.piece p]

def wordOf (as : List Atom) : Word :=
  as.foldr (fun a w =>
    match a, w with
    | .char c, .text false t :: rest => .text false (c :: t) :: rest
    | .char c, w => .text false [c] :: w
    | .piece p, w => p :: w) []

def Atom.isChar (c : Char) : Atom → Bool
  | .char d => c = d
  | .piece _ => false

/-- The alternatives up to the closing brace, and what follows it; `depth` counts inner braces. -/
def alternatives : (depth : Nat) → (current : List Atom) → (read : List (List Atom)) → List Atom →
    Option (List (List Atom) × List Atom)
  | _, _, _, [] => none
  | depth, current, read, .char '\x7b' :: rest =>
    alternatives (depth + 1) (.char '\x7b' :: current) read rest
  | 0, current, read, .char '\x7d' :: rest => some ((current.reverse :: read).reverse, rest)
  | depth + 1, current, read, .char '\x7d' :: rest =>
    alternatives depth (.char '\x7d' :: current) read rest
  | 0, current, read, .char ',' :: rest => alternatives 0 [] (current.reverse :: read) rest
  | depth, current, read, a :: rest => alternatives depth (a :: current) read rest

def textOf? (as : List Atom) : Option Raw :=
  as.mapM fun
    | .char c => some c
    | .piece _ => none

def dotted (t : Raw) : List Raw := (String.ofList t).splitOn ".." |>.map String.toList

def steps (first last step : Int) : List Int :=
  let size : Nat := if step = 0 then 1 else step.natAbs
  let count := (last - first).natAbs / size + 1
  (List.range count).map fun (k : Nat) =>
    if first ≤ last then first + (k : Int) * size else first - (k : Int) * size

/-- A number with at least some digits. -/
def padded (width : Nat) (n : Int) : Raw :=
  let digits := Raw.ofNat n.natAbs
  let sign : Raw := if n < 0 then ['-'] else []
  sign ++ List.replicate (width - sign.length - digits.length) '0' ++ digits

/-- What lies between the ends that a text names. -/
def sequence? (t : Raw) : Option (List Raw) := do
  let (a, b, step) ← match dotted t with
    | [a, b] => some (a, b, (1 : Int))
    | [a, b, s] => (Raw.int? s).map fun s => (a, b, s)
    | _ => none
  match a, b, Raw.int? a, Raw.int? b with
  | _, _, some m, some n =>
    let isPadded (t : Raw) : Bool :=
      match t with
      | '0' :: _ :: _ | '-' :: '0' :: _ :: _ => true
      | _ => false
    let width := if isPadded a || isPadded b then max a.length b.length else 0
    some ((steps m n step).map (padded width))
  | [c], [d], _, _ =>
    if c.isAlpha ∧ d.isAlpha then
      some ((steps c.toNat d.toNat step).map fun n => [Char.ofNat n.toNat])
    else none
  | _, _, _, _ => none

/-- The lists of atoms that one stands for; `before` is what has been passed, backwards. -/
def expand : (fuel : Nat) → (before : List Atom) → List Atom → List (List Atom)
  | 0, before, as => [before.reverse ++ as]
  | _ + 1, before, [] => [before.reverse]
  | fuel + 1, before, .char '\x7b' :: rest =>
    let choices? : Option (List (List Atom) × List Atom) :=
      match alternatives 0 [] [] rest with
      | some ([single], after) =>
        ((textOf? single).bind sequence?).map fun ts => (ts.map fun t => t.map Atom.char, after)
      | some (several, after) => some (several.flatMap (expand fuel []), after)
      | none => none
    match choices? with
    | some (choices, after) =>
      let ends := expand fuel [] after
      choices.flatMap fun c => ends.map fun e => before.reverse ++ c ++ e
    | none => expand fuel (.char '\x7b' :: before) rest
  | fuel + 1, before, a :: rest => expand fuel (a :: before) rest

def words (w : Word) : List Word :=
  let as := atoms w
  if as.any (Atom.isChar '\x7b') then (expand (as.length + 1) [] as).map wordOf else [w]

end LuaTree.Shell.Brace

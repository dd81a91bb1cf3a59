import LuaTree.Shell.Raw

/-!
# Patterns

The patterns of file names and of decisions by form. A pattern is a list of items, so what it accepts is
defined by recursion on it.
-/

namespace LuaTree.Shell

/-- A character of a word, and whether it stands for itself alone. -/
structure Glyph where
  char : Char
  quoted : Bool
  deriving DecidableEq, Inhabited

namespace Pattern

/-- An item of a pattern. -/
inductive Item where
  | exactly (c : Char)
  | one
  | many
  -- one character within one of the ranges, or within none of them
  | among (inside : Bool) (ranges : List (Char × Char))
  deriving DecidableEq, Inhabited

def Item.takes : Item → Char → Bool
  | .exactly d, c => c = d
  | .one, _ => true
  | .many, _ => true
  | .among inside ranges, c => inside == ranges.any fun (lo, hi) => lo ≤ c && c ≤ hi

/-- A text and all that is left of it when characters are taken from its start. -/
def tails : Raw → List Raw
  | [] => [[]]
  | c :: t => (c :: t) :: tails t

def accepts : List Item → Raw → Bool
  | [], t => t.isEmpty
  | .many :: items, t => (tails t).any (accepts items)
  | _ :: _, [] => false
  | item :: items, c :: t => item.takes c && accepts items t

def classRanges? : String → Option (List (Char × Char))
  | "alpha" => some [('A', 'Z'), ('a', 'z')]
  | "digit" => some [('0', '9')]
  | "alnum" => some [('0', '9'), ('A', 'Z'), ('a', 'z')]
  | "upper" => some [('A', 'Z')]
  | "lower" => some [('a', 'z')]
  | "space" => some [('\t', '\r'), (' ', ' ')]
  | "blank" => some [('\t', '\t'), (' ', ' ')]
  | "punct" => some [('!', '/'), (':', '@'), ('[', '\x60'), ('\x7b', '~')]
  | "print" => some [(' ', '~')]
  | "graph" => some [('!', '~')]
  | "cntrl" => some [('\x00', '\x1f'), ('\x7f', '\x7f')]
  | "xdigit" => some [('0', '9'), ('A', 'F'), ('a', 'f')]
  | _ => none

/-- The class that glyphs begin with, behind the bracket that opens it. -/
def class? (gs : List Glyph) : Option (List (Char × Char) × List Glyph) :=
  match gs with
  | ⟨':', false⟩ :: rest =>
    let name := rest.takeWhile fun g => g.char.isAlpha
    match rest.drop name.length with
    | ⟨':', false⟩ :: ⟨']', false⟩ :: rest =>
      (classRanges? (String.ofList (name.map Glyph.char))).map (·, rest)
    | _ => none
  | _ => none

/-- Reads the ranges of a bracketed item up to the closing bracket. -/
def ranges (first : Bool) (read : List (Char × Char)) :
    (fuel : Nat) → List Glyph → Option (List (Char × Char) × List Glyph)
  | 0, _ | _, [] => none
  | fuel + 1, ⟨c, q⟩ :: rest =>
    if c = ']' ∧ q = false ∧ !first then some (read, rest)
    else
      match if c = '[' ∧ q = false then class? rest else none with
      | some (rs, rest) => ranges false (rs ++ read) fuel rest
      | none =>
        match rest with
        | ⟨'-', false⟩ :: ⟨hi, hq⟩ :: rest' =>
          if hi = ']' ∧ hq = false then some (('-', '-') :: (c, c) :: read, rest')
          else ranges false ((c, hi) :: read) fuel rest'
        | _ => ranges false ((c, c) :: read) fuel rest

/-- Reads a bracketed item, from behind the opening bracket. -/
def bracket : List Glyph → Option (Item × List Glyph)
  | ⟨c, q⟩ :: rest =>
    if (c = '!' ∨ c = '^') ∧ q = false then
      (ranges true [] (rest.length + 1) rest).map fun (rs, rest) => (.among false rs, rest)
    else (ranges true [] (rest.length + 2) (⟨c, q⟩ :: rest)).map fun (rs, rest) => (.among true rs, rest)
  | [] => none

def compile : (fuel : Nat) → List Glyph → List Item
  | 0, _ => []
  | _ + 1, [] => []
  | fuel + 1, ⟨c, quoted⟩ :: rest =>
    if quoted then .exactly c :: compile fuel rest
    else if c = '*' then .many :: compile fuel rest
    else if c = '?' then .one :: compile fuel rest
    else if c = '[' then
      match bracket rest with
      | some (item, rest) => item :: compile fuel rest
      | none => .exactly c :: compile fuel rest
    else .exactly c :: compile fuel rest

def ofGlyphs (gs : List Glyph) : List Item := compile (gs.length + 1) gs

/-- Glyphs in which a circumflex is a character like any other and does not turn a bracketed item round. -/
def withoutCaret (gs : List Glyph) : List Glyph :=
  gs.map fun g => if g.char = '^' then { g with quoted := true } else g

/-- Whether glyphs spell more than the text they show. -/
def isActive (gs : List Glyph) : Bool :=
  gs.any fun g => !g.quoted && (g.char = '*' || g.char = '?' || g.char = '[')

/-- Takes from a text the part at its start, or at its end, that a pattern accepts. -/
def trim (atEnd longest : Bool) (items : List Item) (t : Raw) : Raw :=
  let cuts := List.range (t.length + 1)
  -- the cuts from the shortest part to the longest one
  let cuts := if atEnd then cuts.reverse else cuts
  let cuts := if longest then cuts.reverse else cuts
  match cuts.find? fun k => accepts items (if atEnd then t.drop k else t.take k) with
  | some k => if atEnd then t.take k else t.drop k
  | none => t

end Pattern

end LuaTree.Shell

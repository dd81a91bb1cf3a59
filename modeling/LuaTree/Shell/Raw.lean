import LuaTree.Path.Basic

/-!
# Raw text

A shell knows bytes and no characters. `Raw` is a byte string written as a list of characters below
U+0100, one for every byte, so that scripts can be taken apart with character patterns and data that is no
text passes through unharmed.
-/

namespace LuaTree

/-- A byte string with one character below U+0100 for every byte. -/
abbrev Raw := List Char

namespace Raw

def ofBytes (data : Bytes) : Raw := data.map Char.ofUInt8

def bytes (t : Raw) : Bytes := t.map Char.toUInt8

def ofPath (p : PathText) : Raw := ofBytes (Utf8.encode p)

def path (t : Raw) : PathText := Utf8.decodeLossy (bytes t)

def ofNat (n : Nat) : Raw := Nat.toDigits 10 n

/-- A number in decimal, with its sign. -/
def ofInt : Int → Raw
  | .ofNat n => ofNat n
  | .negSucc n => '-' :: ofNat (n + 1)

/-- The number that a text of decimal digits stands for. -/
def nat? (t : Raw) : Option Nat :=
  if t ≠ [] ∧ t.all Char.isDigit then some (t.foldl (fun n c => n * 10 + (c.toNat - 48)) 0) else none

/-- The number that decimal digits after an optional sign stand for. -/
def int? : Raw → Option Int
  | '-' :: t => (nat? t).map fun n => -(n : Int)
  | '+' :: t => (nat? t).map Int.ofNat
  | t => (nat? t).map Int.ofNat

def startsName (c : Char) : Bool := c.isAlpha || c = '_'

def inName (c : Char) : Bool := c.isAlphanum || c = '_'

def isName : Raw → Bool
  | [] => false
  | c :: t => startsName c && t.all inName

/-- Splits a text into its lines; the second component tells whether the last one is complete. -/
def lines (t : Raw) : List Raw × Bool :=
  let parts := t.splitOn '\n'
  if parts.getLast? = some [] then (parts.dropLast, true) else (parts, false)

end Raw

end LuaTree

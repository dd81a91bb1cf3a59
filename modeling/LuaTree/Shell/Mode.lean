import LuaTree.Shell.Format

/-!
# Permission bits as text

Permission bits are written as an octal number, as changes such as `u+x`, or as the letters that listings
show.
-/

namespace LuaTree.Shell.Mode

/-- What a change does with bits. -/
inductive Operator where
  | add
  | remove
  | assign
  deriving DecidableEq, Inhabited

/-- The bits that a change is about. -/
inductive Source where
  | bits (n : Nat)
  | bitsOrRun (n : Nat) -- these bits, and the right to run if it is a directory or somebody has it
  | copied (who : Nat)
  deriving DecidableEq, Inhabited

/-- A change of permission bits. -/
structure Change where
  who : Nat -- the bits of the users it is for; the mask decides if there are none
  operator : Operator
  source : Source
  deriving DecidableEq, Inhabited

def all : Nat := 0o7777

/-- Bits without other ones. -/
def without (a b : Nat) : Nat := a &&& (all ^^^ (b &&& all))

def whoBits : Char → Option Nat
  | 'u' => some 0o4700
  | 'g' => some 0o2070
  | 'o' => some 0o1007
  | 'a' => some 0o7777
  | _ => none

def letterBits (t : Raw) : Nat :=
  t.foldl (fun n c => n ||| match c with
    | 'r' => 0o444
    | 'w' => 0o222
    | 'x' => 0o111
    | 's' => 0o6000
    | 't' => 0o1000
    | _ => 0) 0

def operator? : Char → Option Operator
  | '+' => some .add
  | '-' => some .remove
  | '=' => some .assign
  | _ => none

def changesFor (who : Nat) : (fuel : Nat) → Raw → Option (List Change)
  | 0, _ => none
  | _ + 1, [] => some []
  | fuel + 1, c :: rest => do
    let operator ← operator? c
    match rest with
    | 'u' :: rest => return ⟨who, operator, .copied 0o700⟩ :: (← changesFor who fuel rest)
    | 'g' :: rest => return ⟨who, operator, .copied 0o070⟩ :: (← changesFor who fuel rest)
    | 'o' :: rest => return ⟨who, operator, .copied 0o007⟩ :: (← changesFor who fuel rest)
    | rest =>
      let letters := rest.takeWhile "rwxXst".toList.contains
      let n := letterBits letters
      let source : Source := if letters.contains 'X' then .bitsOrRun n else .bits n
      return ⟨who, operator, source⟩ :: (← changesFor who fuel (rest.drop letters.length))

def changes? (t : Raw) : Option (List Change) :=
  ((t.splitOn ',').mapM fun part =>
    let letters := part.takeWhile fun c => (whoBits c).isSome
    let who := letters.foldl (fun n c => n ||| (whoBits c).getD 0) 0
    let rest := part.drop letters.length
    if rest = [] then none else changesFor who (rest.length + 1) rest).map List.flatten

def octal? (t : Raw) : Option Nat :=
  if t ≠ [] ∧ t.all Format.isOctal then
    let n := (Format.octal t.length 0 t).1
    if n ≤ all then some n else none
  else none

/-- What a text asks for: certain bits, or changes. -/
inductive Wish where
  -- these bits; with fewer than five digits a directory keeps what the owner's group gets
  | exactly (n : Nat) (digits : Nat)
  | changes (cs : List Change)
  deriving Inhabited

/-- Reads what a text asks for. -/
def wish? (t : Raw) : Option Wish :=
  match octal? t with
  | some n => some (.exactly n t.length)
  | none => if t.all Char.isDigit then none else (changes? t).map .changes

def Change.apply (mask : Nat) (isDir : Bool) (old : Nat) (mode : Nat) (c : Change) : Nat :=
  let spread (n : Nat) : Nat :=
    (if n &&& 0o444 ≠ 0 then 0o444 else 0) ||| (if n &&& 0o222 ≠ 0 then 0o222 else 0)
      ||| (if n &&& 0o111 ≠ 0 then 0o111 else 0)
  let value := match c.source with
    | .bits n => n
    | .bitsOrRun n => if isDir || old &&& 0o111 ≠ 0 then n ||| 0o111 else n
    | .copied who => spread (old &&& who)
  -- directories keep the bits for sharing unless those are named
  let named : Bool := match c.source with
    | .bits n | .bitsOrRun n => n &&& 0o6000 != 0
    | .copied _ => false
  let kept := if isDir && !named then 0o6000 else 0
  let value := without (if c.who = 0 then without value mask else value &&& c.who) kept
  match c.operator with
  | .add => mode ||| value
  | .remove => without mode value
  | .assign => (mode &&& ((if c.who = 0 then 0 else without all c.who) ||| kept)) ||| value

/-- The permission bits after what has been asked for. -/
def Wish.apply (mask : Nat) (isDir : Bool) (old : Nat) : Wish → Nat
  | .exactly n digits => if isDir ∧ digits < 5 then n ||| (old &&& 0o6000) else n
  | .changes cs => cs.foldl (fun mode c => c.apply mask isDir mode mode) old

/-- Three letters for three bits; the last one may show a further bit. -/
def triple (n : Nat) (special : Bool) (letter : Char) : Raw :=
  [if n &&& 4 ≠ 0 then 'r' else '-', if n &&& 2 ≠ 0 then 'w' else '-',
   if special then (if n &&& 1 ≠ 0 then letter else letter.toUpper) else if n &&& 1 ≠ 0 then 'x' else '-']

/-- Permission bits as listings show them. -/
def text (mode : Nat) : Raw :=
  triple (mode >>> 6 &&& 7) (mode &&& 0o4000 != 0) 's' ++ triple (mode >>> 3 &&& 7) (mode &&& 0o2000 != 0) 's'
    ++ triple (mode &&& 7) (mode &&& 0o1000 != 0) 't'

/-- Permission bits in octal with at least some digits. -/
def octal (width n : Nat) : Raw :=
  let digits := Nat.toDigits 8 n
  List.replicate (width - digits.length) '0' ++ digits

end LuaTree.Shell.Mode

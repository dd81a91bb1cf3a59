/-!
# Numbers on the command line

Decimal numbers as arguments write them: an optional sign and at least one digit, within bounds. A
text that is no such number is refused with the reason that shows first from left to right.
-/

namespace LuaTree.Number

/-- Why a text is no number. -/
inductive Fault where
  | empty
  | badDigit
  | tooLarge -- the number is above its bound
  | tooSmall -- the number is below its bound
  deriving DecidableEq, Inhabited

def Fault.text : Fault → String
  | .empty => "cannot parse integer from empty string"
  | .badDigit => "invalid digit found in string"
  | .tooLarge => "number too large to fit in target type"
  | .tooSmall => "number too small to fit in target type"

def digit? (c : Char) : Option Nat :=
  if '0' ≤ c ∧ c ≤ '9' then some (c.toNat - '0'.toNat) else none

/-- Reads digits after a number `read` so far; more than `bound` is the fault `excess`. -/
def digits (bound : Nat) (excess : Fault) (read : Nat) : List Char → Except Fault Nat
  | [] => .ok read
  | c :: cs =>
    match digit? c with
    | none => .error .badDigit
    | some d =>
      if bound < read * 10 + d then .error excess else digits bound excess (read * 10 + d) cs

/-- Reads a number from zero to `bound`; a plus sign may stand before it. -/
def unsigned (bound : Nat) (t : List Char) : Except Fault Nat :=
  match t with
  | [] => .error .empty
  | ['+'] => .error .badDigit
  | '+' :: ds => digits bound .tooLarge 0 ds
  | ds => digits bound .tooLarge 0 ds

/-- Reads a number from `-bound - 1` to `bound`; a sign may stand before it. -/
def signed (bound : Nat) (t : List Char) : Except Fault Int :=
  match t with
  | [] => .error .empty
  | ['+'] | ['-'] => .error .badDigit
  | '+' :: ds => (digits bound .tooLarge 0 ds).map Int.ofNat
  | '-' :: ds => (digits (bound + 1) .tooSmall 0 ds).map fun n => -Int.ofNat n
  | ds => (digits bound .tooLarge 0 ds).map Int.ofNat

end LuaTree.Number

import LuaTree.Shell.Builtin.Output
import LuaTree.Shell.Regular.Reader

/-!
# Questions

The questions of the extended dialect, which are asked about words that are not cut into fields. The second
operand of a comparison may be a pattern or a regular expression, and what is settled already is not worked
out.
-/

namespace LuaTree.Shell.Question

open Run

/-- The text of an operator, if a word is written as one. -/
def plain? (w : Word) : Option String := w.plain?.map String.ofList

/-- The regular expression that a word stands for; quoted characters stand for themselves. -/
def expressionOf (run : Runner) (w : Word) : Run Raw := do
  let gs ← Expand.glyphs (innerOf run) w
  return gs.flatMap fun g =>
    if g.quoted && !(g.char.isAlphanum || g.char = '_') then ['\\', g.char] else [g.char]

/-- Whether a text matches a regular expression; the parts are remembered. -/
def matched (run : Runner) (t : Raw) (w : Word) : Run Bool := do
  match Regular.read { isExtended := true } (← expressionOf run w) with
  | .error _ => throw (.failed 2)
  | .ok (r, parts) =>
    let s : Regular.Subject := { chars := t.toArray }
    let m? := r.find? s
    let found := match m? with
      | some m => (List.range (parts + 1)).map (m.part s)
      | none => []
    Builtin.setList "BASH_REMATCH".toList found
    return m?.isSome

/-- Whether the operands of an operator are as it says. -/
def compared (run : Runner) (a : Word) (op : String) (b : Word) : Run Bool := do
  let inner := innerOf run
  let a ← Expand.text inner a
  match op with
  | "==" | "=" => return Pattern.accepts (← Expand.pattern inner b) a
  | "!=" => return !Pattern.accepts (← Expand.pattern inner b) a
  | "=~" => matched run a b
  | op =>
    let b ← Expand.text inner b
    match Condition.comparison? op with
    | some compare => return compare (← Arithmetic.evaluate a) (← Arithmetic.evaluate b)
    | none =>
      match Condition.binary .extended (← Builtin.world) a op b with
      | .ok holds => return holds
      | .error _ => return false

/-- Whether an operand is as an operator in front of it says. -/
def asked (run : Runner) (op : String) (a : Word) : Run Bool := do
  match Condition.unary (← Builtin.world) op (← Expand.text (innerOf run) a) with
  | .ok holds => return holds
  | .error _ => return false

def notEmpty (run : Runner) (w : Word) : Run Bool := return (← Expand.text (innerOf run) w) ≠ []

/-- A question of one operand, or whether a word is empty. -/
def unaryOr (run : Runner) (needed : Bool) (op? : Option String) (w : Word) (rest : List Word) :
    Run (Bool × List Word) := do
  match op?, rest with
  | some op, a :: more =>
    if (Condition.unaryOperators .extended).contains op ∧ plain? a ≠ some "&&" ∧ plain? a ≠ some "||" then
      return (← (if needed then asked run op a else pure false), more)
    else return (← (if needed then notEmpty run w else pure false), rest)
  | _, rest => return (← (if needed then notEmpty run w else pure false), rest)

mutual

/-- Answers alternatives; nothing is worked out unless it is needed. -/
def anyOf (run : Runner) : (fuel : Nat) → (needed : Bool) → List Word → Run (Bool × List Word)
  | 0, _, ws => return (false, ws)
  | fuel + 1, needed, ws => do
    let (p, ws) ← allOf run fuel needed ws
    match ws with
    | w :: rest =>
      if plain? w = some "||" then
        let (q, rest) ← anyOf run fuel (needed && !p) rest
        return (p || q, rest)
      else return (p, ws)
    | [] => return (p, [])

/-- Answers questions that must all be answered well. -/
def allOf (run : Runner) : (fuel : Nat) → (needed : Bool) → List Word → Run (Bool × List Word)
  | 0, _, ws => return (false, ws)
  | fuel + 1, needed, ws => do
    let (p, ws) ← single run fuel needed ws
    match ws with
    | w :: rest =>
      if plain? w = some "&&" then
        let (q, rest) ← allOf run fuel (needed && p) rest
        return (p && q, rest)
      else return (p, ws)
    | [] => return (p, [])

def single (run : Runner) : (fuel : Nat) → (needed : Bool) → List Word → Run (Bool × List Word)
  | 0, _, ws => return (false, ws)
  | fuel + 1, needed, ws => do
    match ws with
    | [] => return (false, [])
    | w :: rest =>
      match plain? w, rest with
      | some "!", _ =>
        let (p, rest) ← single run fuel needed rest
        return (!p, rest)
      | some "(", _ =>
        let (p, rest) ← anyOf run fuel needed rest
        return (p, rest.drop 1)
      | op?, a :: b :: more =>
        let middle := (plain? a).getD ""
        if (Condition.binaryOperators .extended).contains middle then
          return (← (if needed then compared run w middle b else pure false), more)
        else unaryOr run needed op? w rest
      | op?, _ => unaryOr run needed op? w rest

end

def answer (run : Runner) (ws : List Word) : Run Bool :=
  return (← anyOf run (3 * ws.length + 3) true ws).1

end LuaTree.Shell.Question

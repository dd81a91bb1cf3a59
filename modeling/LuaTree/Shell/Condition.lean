import LuaTree.Shell.Arithmetic
import LuaTree.Shell.Format

/-!
# Conditions

What `test` says about its arguments: comparisons of texts and numbers and questions about files, combined
by negation, parentheses, `-a` and `-o`.

A condition is read from left to right with one word before the reader's eyes. In the plain shell the
grammar decides alone; elsewhere conditions of up to four words are first told apart by their number.
-/

namespace LuaTree.Shell.Condition

/-- What a condition is asked about. -/
structure World where
  store : Store
  cwd : Location
  isSet : Raw → Bool := fun _ => false
  hasOption : Raw → Bool := fun _ => false
  timeOf : Entry → Int := fun _ => 0 -- when what stands under an entry was written to

/-- What is wrong with a condition. -/
inductive Fault where
  | unexpected (t : Raw) -- an operator stands where none can
  | noArgument (after : Raw) -- nothing follows an operator
  | unclosed (found : Option Raw) -- a parenthesis is not closed
  | noNumber (t : Raw)
  | noUnary (t : Raw) -- a word should be an operator before its operand
  | noBinary (t : Raw) -- a word should be an operator between operands
  | tooMany (t : Raw)
  deriving DecidableEq, Inhabited

/-- How a fault is worded; `quote` puts a text between quotes. -/
def Fault.text (manner : Format.Manner) (quote : Raw → Raw) (f : Fault) : Raw :=
  match manner with
  | .shell =>
    match f with
    | .unexpected t | .noUnary t | .noBinary t | .tooMany t => t ++ ": unexpected operator".toList
    | .noArgument t => t ++ ": argument expected".toList
    | .unclosed _ => "closing paren expected".toList
    | .noNumber t => "Illegal number: ".toList ++ t
  | .extended =>
    match f with
    | .unexpected t | .noUnary t => t ++ ": unary operator expected".toList
    | .noBinary t => t ++ ": binary operator expected".toList
    | .tooMany _ => "too many arguments".toList
    | .noArgument _ => "argument expected".toList
    | .unclosed none => "\x60)' expected".toList
    | .unclosed (some t) => "\x60)' expected, found ".toList ++ t
    | .noNumber t => t ++ ": integer expression expected".toList
  | .utility =>
    match f with
    | .unexpected t | .noUnary t => quote t ++ ": unary operator expected".toList
    | .noBinary t => quote t ++ ": binary operator expected".toList
    | .tooMany t => "extra argument ".toList ++ quote t
    | .noArgument t => "missing argument after ".toList ++ quote t
    | .unclosed none => "')' expected".toList
    | .unclosed (some t) => "')' expected, found ".toList ++ t
    | .noNumber t => "invalid integer ".toList ++ quote t

/-! ## Single questions -/

def unaryOperators (manner : Format.Manner) : List String :=
  ["-r", "-w", "-x", "-e", "-f", "-d", "-c", "-b", "-p", "-u", "-g", "-k", "-s", "-t", "-z", "-n", "-h", "-L",
   "-O", "-G", "-S"]
    ++ (if manner = .extended then ["-a", "-v", "-o", "-N", "-R"] else if manner = .utility then ["-N"] else [])

def binaryOperators (manner : Format.Manner) : List String :=
  ["=", "!=", "-eq", "-ne", "-ge", "-gt", "-le", "-lt", "-nt", "-ot", "-ef"]
    ++ (match manner with
        | .shell => ["<", ">"]
        | .extended => ["==", "<", ">", "=~"]
        | .utility => ["==", "<", ">"])

def number (a : Raw) : Except Fault Int :=
  let isSpace (c : Char) : Bool := c = ' ' || ('\t' ≤ c && c ≤ '\r')
  let t := ((a.dropWhile isSpace).reverse.dropWhile isSpace).reverse
  match Raw.int? t with
  | some n =>
    if -Arithmetic.largest - 1 ≤ n ∧ n ≤ Arithmetic.largest then .ok n else .error (.noNumber a)
  | none => .error (.noNumber a)

def unary (w : World) (op : String) (a : Raw) : Except Fault Bool :=
  let s := w.store
  let entry (ask : Entry → Bool) : Except Fault Bool :=
    match s.stat? w.cwd (Raw.path a) with
    | .ok (_, e) => .ok (ask e)
    | .error _ => .ok false
  match op with
  | "-n" => .ok (a ≠ [])
  | "-z" => .ok (a = [])
  | "-e" | "-a" => entry fun _ => true
  | "-f" => entry Entry.isFile
  | "-d" => entry Entry.isDir
  | "-p" => entry (· = .fifo)
  | "-r" => entry (s.allows · .read)
  | "-w" => entry (s.allows · .write)
  | "-x" => entry (s.allows · .run)
  | "-s" => entry fun
      | .file i => !(s.inode i).data.isEmpty
      | e => e.isDir
  | "-c" => entry fun
      | .device _ => true
      | _ => false
  | "-u" => entry fun e => s.modeOf e &&& 0o4000 != 0
  | "-g" => entry fun e => s.modeOf e &&& 0o2000 != 0
  | "-k" => entry fun e => s.modeOf e &&& 0o1000 != 0
  | "-O" | "-G" => entry fun
      | .file _ | .link _ | .fifo => true
      | e => s.allows e .write
  | "-h" | "-L" =>
    match s.lstat? w.cwd (Raw.path a) with
    | .ok (_, .link _) => .ok true
    | _ => .ok false
  | "-t" => (number a).map fun _ => false
  | "-v" => .ok (w.isSet a)
  | "-o" => .ok (w.hasOption a)
  | _ => .ok false

def comparison? : String → Option (Int → Int → Bool)
  | "-eq" => some (· == ·)
  | "-ne" => some (· != ·)
  | "-lt" => some (· < ·)
  | "-le" => some (· ≤ ·)
  | "-gt" => some (· > ·)
  | "-ge" => some (· ≥ ·)
  | _ => none

/-- A test of two operands. -/
def binary (manner : Format.Manner) (w : World) (a : Raw) (op : String) (b : Raw) : Except Fault Bool :=
  let find (p : Raw) := (w.store.stat? w.cwd (Raw.path p)).toOption
  -- a file that is there is newer than one that is not, but not for the plain shell
  let newer (found other : Option (Location × Entry)) : Bool :=
    match found, other with
    | some (_, e), some (_, f) => w.timeOf f < w.timeOf e
    | some _, none => manner ≠ .shell
    | none, _ => false
  match op with
  | "=" | "==" => .ok (a = b)
  | "!=" => .ok (a ≠ b)
  | "<" => .ok (a < b)
  | ">" => .ok (b < a)
  | "-ef" => .ok (match find a, find b with
    | some (_, .file i), some (_, .file j) => i = j
    | some (l, _), some (m, _) => l = m
    | _, _ => false)
  | "-nt" => .ok (newer (find a) (find b))
  | "-ot" => .ok (newer (find b) (find a))
  | op =>
    match comparison? op with
    | some compare => do
      let m ← number a
      let n ← number b
      return compare m n
    | none => .ok false

/-! ## The grammar -/

/-- What a word is to the reader. -/
inductive Kind where
  | finish
  | negation
  | opening
  | closing
  | conjunction
  | disjunction
  | unary -- an operator before an operand
  | binary
  | operand
  deriving DecidableEq

def sortOf (manner : Format.Manner) : List Raw → Kind
  | [] => .finish
  | t :: rest =>
    let text := String.ofList t
    let isOperand :=
      match rest with
      | [] => true
      | [_] => false
      | b :: _ => (binaryOperators manner).contains (String.ofList b)
    if text = "!" then .negation
    else if text = "(" then if rest = [] then .operand else .opening
    else if text = ")" then .closing
    else if text = "-a" then .conjunction
    else if text = "-o" then .disjunction
    else if (binaryOperators manner).contains text then .binary
    else if (unaryOperators manner).contains text then if isOperand then .operand else .unary
    else .operand

mutual

/-- Reads alternatives; the words begin with the one before the reader's eyes. -/
def anyOf (manner : Format.Manner) (w : World) :
    (fuel : Nat) → Kind → List Raw → Except Fault (Bool × List Raw)
  | 0, _, ts => .ok (false, ts)
  | fuel + 1, n, ts => do
    let (p, ts) ← allOf manner w fuel n ts
    if sortOf manner (ts.drop 1) = .disjunction then
      let (q, ts) ← anyOf manner w fuel (sortOf manner (ts.drop 2)) (ts.drop 2)
      return (p || q, ts)
    return (p, ts)

/-- Reads conditions that must all hold. -/
def allOf (manner : Format.Manner) (w : World) :
    (fuel : Nat) → Kind → List Raw → Except Fault (Bool × List Raw)
  | 0, _, ts => .ok (false, ts)
  | fuel + 1, n, ts => do
    let (p, ts) ← single manner w fuel n ts
    if sortOf manner (ts.drop 1) = .conjunction then
      let (q, ts) ← allOf manner w fuel (sortOf manner (ts.drop 2)) (ts.drop 2)
      return (p && q, ts)
    return (p, ts)

def single (manner : Format.Manner) (w : World) :
    (fuel : Nat) → Kind → List Raw → Except Fault (Bool × List Raw)
  | 0, _, ts => .ok (false, ts)
  | fuel + 1, n, ts => do
    match n with
    | .negation =>
      let n := sortOf manner (ts.drop 1)
      let (p, ts) ← single manner w fuel n (if n = .finish then ts else ts.drop 1)
      return (!p, ts)
    | .finish => return (false, ts)
    | .opening =>
      let inner := sortOf manner (ts.drop 1)
      if inner = .closing then return (false, ts.drop 1)
      let (p, ts) ← anyOf manner w fuel inner (ts.drop 1)
      match ts.drop 1 with
      | [')'] :: _ => return (p, ts.drop 1)
      | rest => throw (.unclosed rest.head?)
    | .unary =>
      match ts with
      | op :: a :: rest => return (← unary w (String.ofList op) a, a :: rest)
      | op :: [] => throw (.noArgument op)
      | [] => return (false, [])
    | _ =>
      if sortOf manner (ts.drop 1) = .binary then
        match ts with
        | a :: op :: b :: rest => return (← binary manner w a (String.ofList op) b, b :: rest)
        | _ :: op :: [] => throw (.noArgument op)
        | _ => return (false, ts)
      return (ts.head?.any (· ≠ []), ts)

end

/-- Reads a condition by the grammar alone. -/
def parsed (manner : Format.Manner) (w : World) (n : Kind) (ts : List Raw) : Except Fault Bool := do
  let (p, rest) ← anyOf manner w (4 * ts.length + 8) n ts
  match rest with
  | t :: u :: _ =>
    throw (if manner = .shell then .unexpected t else .tooMany u)
  | _ => return p

/-- What the plain shell says about the arguments of `test`. -/
def plainly (w : World) : (fuel : Nat) → List Raw → Except Fault Bool
  | 0, _ | _, [] => .ok false
  | fuel + 1, ts =>
    let enclosed := ts.head? = some ['('] ∧ ts.getLast? = some [')']
    match ts with
    | [a, op, b] =>
      if (binaryOperators .shell).contains (String.ofList op) then
        parsed .shell w .operand [a, op, b]
      else if enclosed then plainly w fuel [op]
      else if a = ['!'] then (plainly w fuel [op, b]).map (!·)
      else parsed .shell w (sortOf .shell ts) ts
    | [a, b, c, d] =>
      if enclosed then plainly w fuel [b, c]
      else if a = ['!'] then (plainly w fuel [b, c, d]).map (!·)
      else parsed .shell w (sortOf .shell ts) ts
    | _ => parsed .shell w (sortOf .shell ts) ts

/-- What others say about the arguments of `test`, where the number of words decides first. -/
def byNumber (manner : Format.Manner) (w : World) : (fuel : Nat) → List Raw → Except Fault Bool
  | 0, _ | _, [] => .ok false
  | fuel + 1, ts =>
    match ts with
    | [a] => .ok (a ≠ [])
    | [a, b] =>
      if a = ['!'] then .ok (b = [])
      else if (unaryOperators manner).contains (String.ofList a) then unary w (String.ofList a) b
      else if manner = .utility ∧ a.head? ≠ some '-' then .error (.noArgument b)
      else .error (.noUnary a)
    | [a, op, b] =>
      if (binaryOperators manner).contains (String.ofList op) then binary manner w a (String.ofList op) b
      else if op = ['-', 'a'] then .ok (a ≠ [] && b ≠ [])
      else if op = ['-', 'o'] then .ok (a ≠ [] || b ≠ [])
      else if a = ['!'] then (byNumber manner w fuel [op, b]).map (!·)
      else if a = ['('] ∧ b = [')'] then .ok (op ≠ [])
      else .error (.noBinary op)
    | [a, b, c, d] =>
      if a = ['!'] then (byNumber manner w fuel [b, c, d]).map (!·)
      else if a = ['('] ∧ d = [')'] then byNumber manner w fuel [b, c]
      else parsed manner w (sortOf manner ts) ts
    | ts => parsed manner w (sortOf manner ts) ts

/-- What is said about the arguments of `test`. -/
def holds (manner : Format.Manner) (w : World) (ts : List Raw) : Except Fault Bool :=
  if manner = .shell then plainly w 8 ts else byNumber manner w 8 ts

end LuaTree.Shell.Condition

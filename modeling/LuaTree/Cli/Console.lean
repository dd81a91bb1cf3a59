import LuaTree.Notice

/-!
# The console

What the command line prints: plain lines and notices. A notice is printed as its level and its text,
with control characters escaped, so that a file name cannot act on a terminal; a plain line is printed
as it is. Which notices are printed is decided by the verbosity.
-/

namespace LuaTree.Console

/-- The least important level that is printed at a verbosity. -/
def threshold (verbosity : Nat) : Level :=
  match verbosity with
  | 0 => .error
  | 1 => .warn
  | 2 => .info
  | _ => .debug

def isPrinted (verbosity : Nat) (level : Level) : Bool := level.rank ≤ (threshold verbosity).rank

/-- How a level is shown, five columns wide. -/
def levelText : Level → String
  | .error => "ERROR"
  | .warn => " WARN"
  | .info => " INFO"
  | .debug => "DEBUG"

def levelColour : Level → String
  | .error => "31"
  | .warn => "33"
  | .info => "32"
  | .debug => "34"

def escapeChar (c : Char) : List Char :=
  if c = '\x1b' then "\\x1b".toList
  else if c = '\x07' then "\\x07".toList
  else if c = '\x08' then "\\x08".toList
  else if c = '\x0c' then "\\x0c".toList
  else if c = '\x7f' then "\\x7f".toList
  else if 0x80 ≤ c.val ∧ c.val ≤ 0x9F then
    "\\u\x7b".toList ++ Nat.toDigits 16 c.toNat ++ ['\x7d']
  else [c]

def escape (t : String) : String := String.ofList (t.toList.flatMap escapeChar)

/-- Something that is printed. -/
inductive Line where
  | plain (text : String)
  | notice (n : Notice)
  deriving DecidableEq, Inhabited

/-- A notice as it is printed. -/
def noticeText (coloured : Bool) (n : Notice) : String :=
  let level :=
    if coloured then
      "\x1b[" ++ levelColour n.level ++ "m" ++ levelText n.level ++ "\x1b[0m"
    else levelText n.level
  level ++ " " ++ escape n.message

/-- The text of a line, if it is printed at a verbosity. -/
def Line.text? (verbosity : Nat) (coloured : Bool) : Line → Option String
  | .plain text => some text
  | .notice n => if isPrinted verbosity n.level then some (noticeText coloured n) else none

def render (verbosity : Nat) (coloured : Bool) (lines : List Line) : String :=
  String.join ((lines.filterMap (·.text? verbosity coloured)).map (· ++ "\n"))

end LuaTree.Console

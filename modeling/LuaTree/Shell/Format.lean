import LuaTree.Shell.Raw
import LuaTree.Text.Decimal

/-!
# Formatted output

The texts that `echo` and `printf` make of their arguments. Backslash sequences are the same in both but
for octal numbers and the sequence that ends the output.
-/

namespace LuaTree.Shell.Format

def isOctal (c : Char) : Bool := '0' ≤ c && c ≤ '7'

/-- Reads at most `n` octal digits. -/
def octal : (n : Nat) → (value : Nat) → Raw → Nat × Raw
  | n + 1, value, c :: rest =>
    if isOctal c then octal n (value * 8 + (c.toNat - 48)) rest else (value, c :: rest)
  | _, value, rest => (value, rest)

def byte (n : Nat) : Char := Char.ofUInt8 n.toUInt8

/-- The character that a backslash followed by a letter stands for. -/
def escaped? : Char → Option Char
  | '\\' => some '\\'
  | 'a' => some '\x07'
  | 'b' => some '\x08'
  | 'e' => some '\x1b'
  | 'f' => some '\x0c'
  | 'n' => some '\n'
  | 'r' => some '\r'
  | 't' => some '\t'
  | 'v' => some '\x0b'
  | _ => none

/-- Who formats: that decides which sequences are known and how complaints are worded. -/
inductive Manner where
  | shell
  | extended
  | utility
  deriving DecidableEq, Inhabited

/-- Reads at most `n` hexadecimal digits, at least one. -/
def hex? (n : Nat) (t : Raw) : Option (Nat × Raw) :=
  let ds := (t.take n).takeWhile fun c => (Decimal.hexValue c).isSome
  if ds = [] then none
  else some (ds.foldl (fun n c => n * 16 + (Decimal.hexValue c).getD 0) 0, t.drop ds.length)

/-- Reads what follows a backslash. -/
def escape (manner : Manner) : Raw → Raw × Raw
  | [] => (['\\'], [])
  | c :: rest =>
    if isOctal c then
      let (n, rest) := octal 3 0 (c :: rest)
      ([byte n], rest)
    else
      match escaped? c with
      | some d => ([d], rest)
      | none =>
        let coded (n : Nat) : Raw := Raw.ofBytes (Utf8.encode [Char.ofNat n])
        if manner = .shell then (['\\'], c :: rest)
        else
          match c, hex? 2 rest, hex? 4 rest, hex? 8 rest with
          | 'x', some (n, rest), _, _ => ([byte n], rest)
          | 'u', _, some (n, rest), _ => (coded n, rest)
          | 'U', _, _, some (n, rest) => (coded n, rest)
          | '"', _, _, _ => (['"'], rest)
          | 'E', _, _, _ => if manner = .extended then (['\x1b'], rest) else (['\\'], c :: rest)
          | '\'', _, _, _ => if manner = .extended then (['\''], rest) else (['\\'], c :: rest)
          | '?', _, _, _ => if manner = .extended then (['?'], rest) else (['\\'], c :: rest)
          | _, _, _, _ => (['\\'], c :: rest)

/-- Puts characters in for backslash sequences; the second component tells whether the output ends
there. -/
def expand (manner : Manner) : (fuel : Nat) → (read : Raw) → Raw → Raw × Bool
  | 0, read, _ => (read.reverse, false)
  | _ + 1, read, [] => (read.reverse, false)
  | fuel + 1, read, '\\' :: rest =>
    match rest with
    | 'c' :: _ => (read.reverse, true)
    | '0' :: rest =>
      let (n, rest) := octal 3 0 rest
      expand manner fuel (byte n :: read) rest
    | '"' :: _ => expand manner fuel ('\\' :: read) rest
    | _ =>
      let (t, rest) := escape manner rest
      expand manner fuel (t.reverse ++ read) rest
  | fuel + 1, read, c :: rest => expand manner fuel (c :: read) rest

/-- A text with its backslash sequences put in. -/
def expanded (manner : Manner) (t : Raw) : Raw × Bool := expand manner (t.length + 1) [] t

/-- What `echo` writes. -/
def echo (arguments : List Raw) : Raw :=
  let (newline, arguments) :=
    match arguments with
    | ['-', 'n'] :: rest => (false, rest)
    | _ => (true, arguments)
  let (text, ended) := expanded .shell ([' '].intercalate arguments)
  if newline && !ended then text ++ ['\n'] else text

/-- What `echo` writes where sequences stay unless they are asked for. -/
def plainEcho (manner : Manner) (arguments : List Raw) : Raw :=
  let isOption (a : Raw) : Bool :=
    match a with
    | '-' :: c :: t => (c :: t).all "neE".toList.contains
    | _ => false
  let letters := (arguments.takeWhile isOption).flatten.filter "eE".toList.contains
  let newline := !(arguments.takeWhile isOption).flatten.contains 'n'
  let text := [' '].intercalate (arguments.dropWhile isOption)
  let (text, ended) := if letters.getLast? = some 'e' then expanded manner text else (text, false)
  if newline && !ended then text ++ ['\n'] else text

/-! ## Conversions -/

/-- A conversion specification. -/
structure Spec where
  flags : List Char := []
  width : Nat := 0
  precision? : Option Nat := none
  deriving Inhabited

namespace Spec

/-- Fills a text up to the width. -/
def pad (s : Spec) (t : Raw) : Raw :=
  if s.flags.contains '-' then t ++ List.replicate (s.width - t.length) ' '
  else List.replicate (s.width - t.length) ' ' ++ t

def ofText (s : Spec) (t : Raw) : Raw :=
  s.pad (match s.precision? with
    | some n => t.take n
    | none => t)

/-- Digits converted, after a sign or a mark of the base. -/
def ofDigits (s : Spec) (mark digits : Raw) : Raw :=
  let digits := List.replicate ((s.precision?.getD 1) - digits.length) '0' ++ digits
  if s.flags.contains '0' ∧ !s.flags.contains '-' ∧ s.precision? = none then
    mark ++ List.replicate (s.width - mark.length - digits.length) '0' ++ digits
  else s.pad (mark ++ digits)

/-- A number in decimal converted. -/
def ofInt (s : Spec) (n : Int) : Raw :=
  let mark :=
    if n < 0 then ['-'] else if s.flags.contains '+' then ['+']
    else if s.flags.contains ' ' then [' '] else []
  s.ofDigits mark (if n = 0 then (if s.precision? = some 0 then [] else ['0']) else Raw.ofNat n.natAbs)

/-- A number without a sign in a base converted; negative ones stand for machine words. -/
def ofBase (s : Spec) (base : Nat) (capital : Bool) (n : Int) : Raw :=
  let n := (n % 0x10000000000000000).toNat
  let digits := Nat.toDigits base n
  let digits := if capital then digits.map Char.toUpper else digits
  let mark :=
    if s.flags.contains '#' ∧ n ≠ 0 then
      if base = 16 then ['0', if capital then 'X' else 'x'] else if base = 8 then ['0'] else []
    else []
  s.ofDigits mark digits

end Spec

namespace Spec

/-- A number with a point converted. -/
def ofBinary (s : Spec) (style : Decimal.Style) (capital : Bool) (n : Decimal.Binary) : Raw :=
  let mark :=
    if n.isNegative then ['-'] else if s.flags.contains '+' then ['+']
    else if s.flags.contains ' ' then [' '] else []
  let text := Decimal.write style capital (s.precision?.getD 6) (s.flags.contains '#') n
  if s.flags.contains '0' ∧ !s.flags.contains '-' ∧ n.isFinite then
    mark ++ List.replicate (s.width - mark.length - text.length) '0' ++ text
  else s.pad (mark ++ text)

end Spec

/-- What is wrong with a format or an argument. -/
inductive Complaint where
  | noNumber (t : Raw)
  | trailing (t : Raw) -- something follows the number
  | range (t : Raw)
  | missing (spec : Raw) -- the format ends in the middle of a conversion
  | invalid (spec : Raw)
  deriving DecidableEq, Inhabited

namespace Complaint

/-- Whether nothing is written any more. -/
def isGrave : Complaint → Bool
  | .missing _ | .invalid _ => true
  | _ => false

/-- How a complaint is worded; `quote` puts a text between quotes. -/
def text (manner : Manner) (quote : Raw → Raw) : Complaint → Raw
  | .noNumber t =>
    match manner with
    | .shell => t ++ ": expected numeric value".toList
    | .extended => t ++ ": invalid number".toList
    | .utility => quote t ++ ": expected a numeric value".toList
  | .trailing t =>
    match manner with
    | .shell => t ++ ": not completely converted".toList
    | .extended => t ++ ": invalid number".toList
    | .utility => quote t ++ ": value not completely converted".toList
  | .range t =>
    match manner with
    | .extended => "warning: ".toList ++ t ++ ": Numerical result out of range".toList
    | .utility => quote t ++ ": Numerical result out of range".toList
    | .shell => t ++ ": Numerical result out of range".toList
  | .missing spec =>
    match manner with
    | .shell => "missing format character".toList
    | .extended => "\x60".toList ++ spec.take 1 ++ "': missing format character".toList
    | .utility => spec ++ ": invalid conversion specification".toList
  | .invalid spec =>
    match manner with
    | .shell => spec ++ ": invalid directive".toList
    | .extended =>
      "\x60".toList ++ (spec.getLast?).toList ++ "': invalid format character".toList
    | .utility => spec ++ ": invalid conversion specification".toList

end Complaint

/-- Reads a number as an argument gives it, with what is wrong with it. -/
def numberOf (signed : Bool) (t : Raw) : Int × Option Complaint :=
  match t with
  | [] => (0, none)
  | '"' :: rest | '\'' :: rest => ((rest.headD '\x00').toNat, none)
  | _ =>
    let body := t.dropWhile fun c => c = ' ' || ('\t' ≤ c && c ≤ '\r')
    let (negative, body) : Bool × Raw :=
      match body with
      | '-' :: b => (true, b)
      | '+' :: b => (false, b)
      | b => (false, b)
    let digit (base : Nat) (c : Char) : Bool := ((Decimal.hexValue c).any (· < base))
    let (base, ds) : Nat × Raw :=
      match body with
      | '0' :: x :: rest =>
        if (x = 'x' ∨ x = 'X') ∧ rest.head?.any (digit 16) then (16, rest) else (8, body)
      | _ => (10, body)
    let used := ds.takeWhile (digit base)
    let n : Int := used.foldl (fun (n : Int) c => n * base + (Decimal.hexValue c).getD 0) 0
    let n := if negative then -n else n
    let (lo, hi) : Int × Int :=
      if signed then (-0x8000000000000000, 0x7FFFFFFFFFFFFFFF)
      else (-0xFFFFFFFFFFFFFFFF, 0xFFFFFFFFFFFFFFFF)
    let clamped := if n < lo then (if signed then lo else hi) else if hi < n then hi else n
    if used = [] then (0, some (.noNumber t))
    else if used.length < ds.length then (clamped, some (.trailing t))
    else if clamped ≠ n then (clamped, some (.range t))
    else (n, none)

/-- Reads a number with a point as an argument gives it. -/
def binaryOf (w : Decimal.Width) (t : Raw) : Decimal.Binary × Option Complaint :=
  match t with
  | [] => (.zero, none)
  | '"' :: rest | '\'' :: rest => (.finite false (rest.headD '\x00').toNat 0, none)
  | _ =>
    match Decimal.read? w t with
    | none => (.zero, some (.noNumber t))
    | some (n, []) =>
      (n, if !n.isFinite ∧ t.any Char.isDigit then some (.range t) else none)
    | some (n, _) => (n, some (.trailing t))

/-! ## Formats -/

/-- What `printf` has done so far. -/
structure Printed where
  out : List Raw := [] -- what it writes, last part first
  arguments : List Raw
  used : Bool := false -- whether an argument was used since the format began anew
  complaints : List Complaint := [] -- the complaints, last one first
  ended : Bool := false -- whether the output ends here

namespace Printed

def put (p : Printed) (t : Raw) : Printed := { p with out := t :: p.out }

/-- Takes the next argument; missing ones are none. -/
def take (p : Printed) : Option Raw × Printed :=
  match p.arguments with
  | [] => (none, p)
  | a :: rest => (some a, { p with arguments := rest, used := true })

/-- Takes the next argument as read by a function that may complain. -/
def takeAs {α : Type} (p : Printed) (default : α) (read : Raw → α × Option Complaint) : α × Printed :=
  let (a, p) := p.take
  match a with
  | none => (default, p)
  | some a =>
    match read a with
    | (n, none) => (n, p)
    | (n, some c) => (n, { p with complaints := c :: p.complaints })

def takeNumber (p : Printed) (signed : Bool := true) : Int × Printed := p.takeAs 0 (numberOf signed)

end Printed

/-- Reads a number or a star that stands for an argument. -/
def measure (p : Printed) : Raw → Option Int × Raw × Printed
  | '*' :: rest =>
    let (n, p) := p.takeNumber
    (some n, rest, p)
  | t =>
    let digits := t.takeWhile Char.isDigit
    ((Raw.nat? digits).map Int.ofNat, t.drop digits.length, p)

/-- Writes one conversion; `quote` writes a text so that a shell can read it. -/
def convert (manner : Manner) (quote : Raw → Raw) (s : Spec) (p : Printed) (c : Char) :
    Option Printed :=
  let number (style : Decimal.Style) (capital : Bool) : Option Printed :=
    let w : Decimal.Width := if manner = .shell then .double else .extended
    let (n, p) := p.takeAs .zero (binaryOf w)
    some (p.put (s.ofBinary style capital n))
  let base (b : Nat) (capital : Bool) : Option Printed :=
    let (n, p) := p.takeNumber false
    some (p.put (s.ofBase b capital n))
  match c with
  | 's' =>
    let (a, p) := p.take
    some (p.put (s.ofText (a.getD [])))
  | 'b' =>
    let (a, p) := p.take
    let (t, ended) := expanded manner (a.getD [])
    some { p.put (s.ofText t) with ended }
  | 'c' =>
    let (a, p) := p.take
    let t := (a.getD []).take 1
    some (p.put (s.pad (if t = [] ∧ manner ≠ .extended then ['\x00'] else t)))
  | 'q' =>
    if manner = .shell then none
    else
      let (a, p) := p.take
      some (p.put (s.ofText (quote (a.getD []))))
  | 'd' | 'i' =>
    let (n, p) := p.takeNumber
    some (p.put (s.ofInt n))
  | 'u' => base 10 false
  | 'o' => base 8 false
  | 'x' => base 16 false
  | 'X' => base 16 true
  | 'f' => number .fixed false
  | 'F' => number .fixed true
  | 'e' => number .scientific false
  | 'E' => number .scientific true
  | 'g' => number .general false
  | 'G' => number .general true
  | _ => none

/-- Goes through the format once. -/
def pass (manner : Manner) (quote : Raw → Raw) (p : Printed) : (fuel : Nat) → Raw → Printed
  | 0, _ => p
  | _ + 1, [] => p
  | fuel + 1, '\\' :: rest =>
    match rest with
    | 'c' :: _ =>
      if manner = .utility then { p with ended := true }
      else pass manner quote (p.put ['\\']) fuel rest
    | _ =>
      let (t, rest) := escape manner rest
      pass manner quote (p.put t) fuel rest
  | fuel + 1, '%' :: '%' :: rest => pass manner quote (p.put ['%']) fuel rest
  | fuel + 1, '%' :: rest =>
    let flags := rest.takeWhile "#-+ 0".toList.contains
    let (width, rest', p) := measure p (rest.drop flags.length)
    let width := width.getD 0
    let flags := if width < 0 then '-' :: flags else flags
    let (precision?, rest', p) :=
      match rest' with
      | '.' :: rest' =>
        let (n, rest', p) := measure p rest'
        (some (n.getD 0), rest', p)
      | _ => (none, rest', p)
    -- a precision below zero is none
    let precision? := precision?.bind fun n => if n < 0 then none else some n.toNat
    match rest' with
    | [] => { p with complaints := .missing ('%' :: rest) :: p.complaints, ended := true }
    | c :: rest' =>
      match convert manner quote { flags, width := width.natAbs, precision? } p c with
      | some p => if p.ended then p else pass manner quote p fuel rest'
      | none =>
        let spec := '%' :: rest.take (rest.length - rest'.length)
        { p with complaints := .invalid spec :: p.complaints, ended := true }
  | fuel + 1, c :: rest => pass manner quote (p.put [c]) fuel rest

/-- Goes through the format again as long as arguments are left and get used. -/
def passes (manner : Manner) (quote : Raw → Raw) (format : Raw) : (fuel : Nat) → Printed → Printed
  | 0, p => p
  | fuel + 1, p =>
    let p := pass manner quote { p with used := false } (format.length + 1) format
    if p.ended || !p.used || p.arguments.isEmpty then p else passes manner quote format fuel p

/-- What `printf` writes, what it complains about, and the arguments that it had no use for. -/
def printf (manner : Manner) (quote : Raw → Raw) (format : Raw) (arguments : List Raw) :
    Raw × List Complaint × List Raw :=
  let p := passes manner quote format (arguments.length + 1) { arguments }
  (p.out.reverse.flatten, p.complaints.reverse, p.arguments)

end LuaTree.Shell.Format

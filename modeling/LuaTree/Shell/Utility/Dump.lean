import LuaTree.Shell.Format
import LuaTree.Shell.Utility.Basic

/-!
# Showing bytes as numbers

`od` shows input in rows of bytes, each in one form or several. All forms of a row take the same room, so that
the same bytes stand below each other.
-/

namespace LuaTree.Shell.Utility

open Run

/-- How the bytes of a row are shown. -/
inductive DumpKind where
  | named
  | character
  | signed
  | unsigned -- as numbers without a sign
  | octal
  | hex
  deriving DecidableEq, Inhabited

/-- A form in which a row is shown. -/
structure DumpForm where
  kind : DumpKind
  size : Nat
  hasText : Bool := false -- whether the characters follow behind
  deriving DecidableEq, Inhabited

namespace DumpForm

/-- How many characters a number takes. -/
def width (f : DumpForm) : Nat :=
  let bySize (a b c d : Nat) : Nat := match f.size with
    | 1 => a
    | 2 => b
    | 4 => c
    | _ => d
  match f.kind with
  | .named | .character => 3
  | .signed => bySize 4 6 11 20
  | .unsigned => bySize 3 5 10 20
  | .octal => bySize 3 6 11 22
  | .hex => bySize 2 4 8 16

def names : List String :=
  ["nul", "soh", "stx", "etx", "eot", "enq", "ack", "bel", "bs", "ht", "nl", "vt", "ff", "cr", "so", "si", "dle",
   "dc1", "dc2", "dc3", "dc4", "nak", "syn", "etb", "can", "em", "sub", "esc", "fs", "gs", "rs", "us", "sp"]

/-- Digits of a number, with zeros before them. -/
def digits (base width n : Nat) : Raw :=
  let t := Nat.toDigits base n
  List.replicate (width - t.length) '0' ++ t

def shown (f : DumpForm) (isBig : Bool) (bytes : Bytes) : Raw :=
  let n := (if isBig then bytes else bytes.reverse).foldl (fun n b => n * 256 + b.toNat) 0
  match f.kind with
  | .named =>
    let n := n % 128
    match names[n]? with
    | some t => t.toList
    | none => if n = 127 then "del".toList else [Char.ofNat n]
  | .character =>
    let c := Char.ofNat n
    if c = '\x00' then ['\\', '0']
    else
      match Quote.letter? c with
      | some l => ['\\', l]
      | none => if Quote.isShown c then [c] else digits 8 3 n
  | .signed =>
    let limit := 1 <<< (8 * f.size - 1)
    Raw.ofInt (if n < limit then (n : Int) else (n : Int) - 2 * limit)
  | .unsigned => Raw.ofNat n
  | .octal => digits 8 f.width n
  | .hex => digits 16 f.width n

def count (f : DumpForm) (row : Nat) : Nat := row / f.size

/-- A row as it is shown; all forms take the same room. -/
def line (f : DumpForm) (row room : Nat) (isBig : Bool) (bytes : Bytes) : Raw :=
  let fields := f.count row
  let blank := (row - bytes.length) / f.size
  let pad := room - fields * f.width
  let filled := bytes ++ List.replicate (row - bytes.length) 0
  let (read, _) := (List.range (fields - blank)).foldl (fun (read, left) k =>
    let next := pad * (fields - k - 1) / fields
    let t := f.shown isBig ((filled.drop (k * f.size)).take f.size)
    (read ++ List.replicate (left - next + f.width - t.length) ' ' ++ t, next)) (([] : Raw), pad)
  let text : Raw :=
    if f.hasText then
      List.replicate (blank * f.width + pad * blank / fields) ' ' ++ "  >".toList
        ++ (bytes.map fun b => if Quote.isShown (Char.ofUInt8 b) then Char.ofUInt8 b else '.') ++ ['<']
    else []
  read ++ text

def read? (t : Raw) : Except Raw (DumpForm × Raw) :=
  match t with
  | [] => .error []
  | c :: rest =>
    let kind? : Option DumpKind :=
      match c with
      | 'a' => some .named
      | 'c' => some .character
      | 'd' => some .signed
      | 'u' => some .unsigned
      | 'o' => some .octal
      | 'x' => some .hex
      | _ => none
    match kind? with
    | none => .error ("invalid character '".toList ++ c :: "' in type string ".toList)
    | some kind =>
      let isText : Bool := kind = .named || kind = .character
      let number := rest.takeWhile Char.isDigit
      let sized : Nat × Raw :=
        if isText then (1, rest)
        else if number ≠ [] then ((Raw.nat? number).getD 0, rest.drop number.length)
        else
          match rest with
          | 'C' :: t => (1, t)
          | 'S' :: t => (2, t)
          | 'I' :: t => (4, t)
          | 'L' :: t => (8, t)
          | t => (4, t)
      let (size, rest) := sized
      if size ≠ 1 ∧ size ≠ 2 ∧ size ≠ 4 ∧ size ≠ 8 then
        .error (['#'] ++ Raw.ofNat size)
      else
        match rest with
        | 'z' :: rest => .ok ({ kind, size, hasText := true }, rest)
        | rest => .ok ({ kind, size }, rest)

def readAll (whole : Raw) : (fuel : Nat) → Raw → Except Raw (List DumpForm)
  | 0, _ => .ok []
  | _ + 1, [] => .ok []
  | fuel + 1, t =>
    match read? t with
    | .error ('#' :: n) =>
      .error ("invalid type string ".toList ++ Quote.shown whole ++ ";\nthis system doesn't provide a ".toList ++ n
        ++ "-byte integral type".toList)
    | .error message => .error (message ++ Quote.shown whole)
    | .ok (f, rest) => (readAll whole fuel rest).map (f :: ·)

end DumpForm

/-- The number of bytes that a text stands for. -/
def dumpCount? (t : Raw) : Option Nat :=
  let (base, digits) : Nat × Raw :=
    match t with
    | '0' :: 'x' :: rest | '0' :: 'X' :: rest => (16, rest)
    | '0' :: c :: rest => if c.isDigit then (8, c :: rest) else (10, t)
    | _ => (10, t)
  let value? (c : Char) : Option Nat := (Decimal.hexValue c).bind fun n => if n < base then some n else none
  let number := digits.takeWhile fun c => (value? c).isSome
  let n := number.foldl (fun n c => n * base + (value? c).getD 0) 0
  if number = [] then none
  else
    match String.ofList (digits.drop number.length) with
    | "" => some n
    | "b" => some (n * 512)
    | "k" | "K" | "KiB" => some (n * 1024)
    | "m" | "M" | "MiB" => some (n * 1048576)
    | "kB" | "KB" => some (n * 1000)
    | "MB" => some (n * 1000000)
    | _ => none

/-- Rewrites the letters that stand for a form of their own. -/
def modernDump (c : Char) : Option Raw :=
  match c with
  | 'a' => some ['a']
  | 'b' => some "o1".toList
  | 'c' => some ['c']
  | 'd' => some "u2".toList
  | 'D' => some "u4".toList
  | 'h' | 'x' => some "x2".toList
  | 'H' | 'X' => some "x4".toList
  | 'i' => some "d4".toList
  | 'I' | 'L' | 'l' => some "d8".toList
  | 'o' | 'B' => some "o2".toList
  | 'O' => some "o4".toList
  | 's' => some "d2".toList
  | _ => none

def takeBytes (descriptor : Nat) : (fuel : Nat) → (n : Nat) → List Bytes → Run (Except Errno Bytes)
  | 0, _, read => return .ok read.reverse.flatten
  | fuel + 1, n, read => do
    if n = 0 then return .ok read.reverse.flatten
    match ← readSome descriptor (min n blockSize) with
    | .error e => return .error e
    | .ok [] => return .ok read.reverse.flatten
    | .ok data => takeBytes descriptor fuel (n - data.length) (data :: read)

/-- The rows of a dump, without those that repeat the one before. -/
def dumpRows (address : Nat → Raw) (pad : Nat) (forms : List DumpForm) (row : Nat) (isBig showsAll : Bool) :
    (fuel : Nat) → (place : Nat) → (before? : Option (Bytes × Bool)) → Bytes → List Raw → List Raw × Nat
  | 0, place, _, _, done => (done.reverse, place)
  | _ + 1, place, _, [], done => (done.reverse, place)
  | fuel + 1, place, before?, data, done =>
    let bytes := data.take row
    let rest := data.drop row
    let room := forms.foldl (fun n f => max n ((f.width + 1) * f.count row)) 0
    let isRepeated : Bool := !showsAll && bytes.length = row && before?.any fun p => p.1 = bytes
    if isRepeated then
      let isMarked := before?.any Prod.snd
      dumpRows address pad forms row isBig showsAll fuel (place + row) (some (bytes, true)) rest
        (if isMarked then done else "*\n".toList :: done)
    else
      let rows := forms.zipIdx.map fun (f, k) =>
        (if k = 0 then address place else List.replicate pad ' ') ++ f.line row room isBig bytes ++ ['\n']
      dumpRows address pad forms row isBig showsAll fuel (place + bytes.length) (some (bytes, false)) rest
        (rows.reverse ++ done)

/-- The options of `od`. -/
def dumpOptions : OptionTable where
  flags := "abcdDhHxXiILloBOsv"
  valued := "AjNtS\x05"
  optional := "w"
  long := [("address-radix", 'A'), ("skip-bytes", 'j'), ("read-bytes", 'N'), ("format", 't'),
    ("output-duplicates", 'v'), ("width", 'w'), ("endian", '\x05'), ("strings", 'S')]

/-- `od`: shows bytes as numbers. -/
def od : Utility := withTable dumpOptions fun name o => do
  let number (c : Char) : Except Raw (Option Nat) :=
    match o.value? c with
    | none => .ok none
    | some t =>
      match dumpCount? t with
      | some n => .ok (some n)
      | none => .error ("invalid -".toList ++ [c] ++ " argument ".toList ++ Quote.shown t)
  let radix := (o.value? 'A').getD ['o']
  let forms := o.given.foldl (fun (forms : Except Raw (List DumpForm)) (c, t) =>
    forms.bind fun forms =>
      match if c = 't' then some t else modernDump c with
      | some t => (DumpForm.readAll t (t.length + 1) t).map (forms ++ ·)
      | none => .ok forms) (.ok [])
  let width? := if o.value? 'w' = some [] then Except.ok (some 32) else number 'w'
  match if "doxn".toList.contains (radix.headD ' ') then (none : Option Raw)
    else some ("invalid output address radix '".toList ++ radix.take 1
      ++ "'; it must be one character from [doxn]".toList) with
  | some message =>
    complain name message
    return 1
  | none =>
    match number 'j', number 'N', width?, forms with
    | .error message, _, _, _ | _, .error message, _, _ | _, _, .error message, _ | _, _, _, .error message =>
      complain name message
      return 1
    | .ok skip?, .ok most?, .ok width?, .ok forms =>
      let forms := if forms = [] then [{ kind := .octal, size := 2 }] else forms
      let unit := forms.foldl (fun n f => max n f.size) 1
      let wanted := width?.getD 16
      let isWrong : Bool := wanted = 0 || wanted % unit ≠ 0
      let row := if isWrong then unit else wanted
      let address (n : Nat) : Raw :=
        match radix.headD 'o' with
        | 'd' => DumpForm.digits 10 7 n
        | 'x' => DumpForm.digits 16 6 n
        | 'n' => []
        | _ => DumpForm.digits 8 7 n
      let skip := skip?.getD 0
      let mut left? := most?.map (· + skip)
      let mut data : Bytes := []
      let mut status := 0
      let mut isOpen := false
      for file in inputFiles o.operands do
        if left? = some 0 ∧ isOpen then break
        match joined (← withInput file fun d => takeBytes d rounds (left?.getD rounds) []) with
        | .ok more =>
          if isWrong ∧ !isOpen then
            complain name ("warning: invalid width ".toList ++ Raw.ofNat wanted ++ "; using ".toList
              ++ Raw.ofNat unit ++ " instead".toList)
          isOpen := true
          data := data ++ more
          left? := left?.map (· - more.length)
        | .error e =>
          complainFile name file e
          status := 1
      if !isOpen then return status
      if data.length < skip then
        complain name "cannot skip past end of combined input".toList
        return 1
      let (rows, finish) :=
        dumpRows address (address 0).length forms row (o.value? '\x05' = some "big".toList) (o.has 'v')
          (data.length + 1) skip none (data.drop skip) []
      putText rows.flatten
      if radix.head? ≠ some 'n' then putLine (address finish)
      return status

end LuaTree.Shell.Utility

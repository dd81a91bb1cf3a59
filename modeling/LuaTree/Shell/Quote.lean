import LuaTree.Shell.Raw

/-!
# Quotes

How texts are shown between quotes: in messages (`shown`), so that a shell reads them as one word (`always`,
`ifNeeded`, `escaped`), and in the lists that a shell makes of its settings (`listed`).
-/

namespace LuaTree.Shell.Quote

def isShown (c : Char) : Bool := ' ' ≤ c && c < '\x7f'

def octal (c : Char) : Raw :=
  let digits := Nat.toDigits 8 c.toNat
  List.replicate (3 - digits.length) '0' ++ digits

def letter? : Char → Option Char
  | '\x07' => some 'a'
  | '\x08' => some 'b'
  | '\x0c' => some 'f'
  | '\n' => some 'n'
  | '\r' => some 'r'
  | '\t' => some 't'
  | '\x0b' => some 'v'
  | _ => none

/-- A character that cannot be shown, behind a backslash. -/
def sequence (c : Char) : Raw :=
  match letter? c with
  | some l => ['\\', l]
  | none => '\\' :: octal c

/-- A text between quotes as messages show it. -/
def shown (t : Raw) : Raw :=
  ['\''] ++ t.flatMap (fun c =>
    if c = '\'' ∨ c = '\\' then ['\\', c] else if isShown c then [c] else sequence c) ++ ['\'']

/-- Whether a character keeps a text from being read as it stands. -/
def isSpecial (alone first : Bool) (c : Char) : Bool :=
  if c = '\x7b' || c = '\x7d' then alone
  else if c = '#' || c = '~' then first
  else " !\"$&()*;<=>?[\\^\x60|'".toList.contains c || !isShown c

/-- Whether a character can stand between double quotes together with a single quote. -/
def isPlain (alone first : Bool) (c : Char) : Bool :=
  if c = '\x7b' || c = '\x7d' then alone
  else if c = '#' || c = '~' then first
  else c = ' ' || c = '\'' || (isShown c && !"!\"$&()*;<=>?[\\^\x60|".toList.contains c)

/-- A text between quotes so that a shell reads it as one word; `escaping` tells whether the last character
stood behind a backslash. -/
def single : (escaping : Bool) → Raw → Raw
  | _, [] => ['\'']
  | escaping, c :: t =>
    if !isShown c then (if escaping then [] else "'$'".toList) ++ sequence c ++ single true t
    else if c = '\'' then
      -- the quotes are open again after a quoted quote, whichever they were
      "'\\''".toList ++ single false t
    else (if escaping then "''".toList else []) ++ c :: single false t

/-- A text between quotes so that a shell reads it as one word. -/
def always (t : Raw) : Raw :=
  let alone := t.length = 1
  if t.contains '\'' ∧ (t.zipIdx.all fun (c, k) => isPlain alone (k = 0) c) then ['"'] ++ t ++ ['"']
  else '\'' :: single false t

/-- A text as it stands if a shell reads that as one word, and between quotes otherwise; a colon counts as
something to be quoted where asked. -/
def ifNeeded (colon : Bool) (t : Raw) : Raw :=
  let alone := t.length = 1
  if t = [] ∨ (t.zipIdx.any fun (c, k) => isSpecial alone (k = 0) c) ∨ (colon ∧ t.contains ':') then
    always t
  else t

/-! ## As the extended dialect quotes -/

/-- Whether a shell takes a text for something else than what it shows. -/
def hasMeaning (t : Raw) : Bool :=
  t.head? = some '#' || (t.zip ('=' :: t)).any fun (c, before) =>
    " \t\n'\"\\|&;()<>!\x7b\x7d*[?]^$\x60".toList.contains c || (c = '~' && (before = '=' || before = ':'))

def between (t : Raw) : Raw :=
  if t = ['\''] then ['\\', '\'']
  else ['\''] ++ t.flatMap (fun c => if c = '\'' then "'\\''".toList else [c]) ++ ['\'']

/-- A text between quotes in which what cannot be shown is named. -/
def coded (t : Raw) : Raw :=
  "$'".toList ++ t.flatMap (fun c =>
    if c = '\'' ∨ c = '\\' then ['\\', c]
    else if c = '\x1b' then ['\\', 'E']
    else if isShown c then [c]
    else sequence c) ++ ['\'']

/-- A text with backslashes, so that a shell reads it as one word. -/
def escaped (t : Raw) : Raw :=
  let isFree (c : Char) : Bool := c.isAlphanum || "%+-./:=@_".toList.contains c
  if t = [] then "''".toList
  else if t.all isShown then
    t.zipIdx.flatMap fun (c, k) =>
      if isFree c || ((c = '#' || c = '~') && k ≠ 0) then [c] else ['\\', c]
  else coded t

/-- A text between quotes so that it can be read again. -/
def again (t : Raw) : Raw := if t.all isShown then between t else coded t

/-- A text between double quotes, or with names for what cannot be shown. -/
def double (t : Raw) : Raw :=
  if t.all isShown then
    ['"'] ++ t.flatMap (fun c => if "\"$\\\x60".toList.contains c then ['\\', c] else [c]) ++ ['"']
  else coded t

def listedAgain (t : Raw) : Raw :=
  if !t.all isShown then coded t else if hasMeaning t then between t else t

/-- A word of a command that is shown when it is run. -/
def traced (t : Raw) : Raw :=
  if t = [] then "''".toList
  else if hasMeaning t then between t
  else if t.all isShown then t
  else coded t

/-! ## As the plain dialect lists -/

/-- A text as a shell lists it among its settings. -/
def listed (t : Raw) : Raw := go (t.length + 1) t
where
  -- goes on with what is left: what stands before single quotes, and the quotes between double ones
  go : (fuel : Nat) → Raw → Raw
    | 0, _ => []
    | fuel + 1, t =>
      let before := t.takeWhile (· ≠ '\'')
      let t := t.drop before.length
      let quotes := t.takeWhile (· = '\'')
      let rest := t.drop quotes.length
      ['\''] ++ before ++ ['\''] ++ (if quotes = [] then [] else ['"'] ++ quotes ++ ['"'])
        ++ if rest = [] then [] else go fuel rest

end LuaTree.Shell.Quote

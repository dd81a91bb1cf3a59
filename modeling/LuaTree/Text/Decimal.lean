/-!
# Decimal texts of binary numbers

Numbers with a point are kept as a whole number times a power of two (`Binary`), with as many bits as the
machine keeps. Reading a decimal text takes the nearest such number, and writing one takes the nearest
decimal text of the wanted length; in both, a tie goes to the even neighbour. All arithmetic on the way is
exact.
-/

namespace LuaTree.Decimal

/-- A quotient rounded to the nearest whole number, a tie to the even one. -/
def roundDiv (num den : Nat) : Nat :=
  let q := num / den
  let r := num % den
  if den < 2 * r ∨ (2 * r = den ∧ q % 2 = 1) then q + 1 else q

def ten (n : Nat) : Nat := Nat.pow 10 n

def two (n : Nat) : Nat := 1 <<< n

/-- A number with a point. -/
inductive Binary where
  -- a whole number times a power of two
  | finite (negative : Bool) (mantissa : Nat) (exponent : Int)
  | infinite (negative : Bool)
  | nan (negative : Bool)
  deriving DecidableEq, Inhabited

/-- How many bits a machine keeps, and between which exponents. -/
structure Width where
  bits : Nat
  largest : Int -- the largest exponent of the number as a whole
  deriving DecidableEq, Inhabited

namespace Width

def double : Width := ⟨53, 1024⟩

def extended : Width := ⟨64, 16384⟩

end Width

namespace Binary

def zero : Binary := .finite false 0 0

def ofQuotient (w : Width) (negative : Bool) (num den : Nat) : Binary :=
  if num = 0 then .finite negative 0 0
  else
    -- the exponent at which the mantissa has all bits, or the least one
    let guess : Int := (Nat.log2 num : Int) - (Nat.log2 den : Int) - w.bits
    let least : Int := 3 - w.largest - w.bits
    let scaled (e : Int) : Nat :=
      if 0 ≤ e then roundDiv num (den * two e.toNat) else roundDiv (num * two (-e).toNat) den
    let e := max guess least
    let e := if two w.bits ≤ scaled e then e + 1 else e
    let m := scaled e
    let (m, e) := if m = two w.bits then (two (w.bits - 1), e + 1) else (m, e)
    if w.largest < e + (Nat.log2 m : Int) + 1 then .infinite negative else .finite negative m e

def quotient (mantissa : Nat) (exponent : Int) : Nat × Nat :=
  if 0 ≤ exponent then (mantissa * two exponent.toNat, 1) else (mantissa, two (-exponent).toNat)

def ofFloat (x : Float) : Binary :=
  let bits := x.toBits.toNat
  let negative := decide (two 63 ≤ bits)
  let fraction := bits % two 52
  match bits / two 52 % two 11 with
  | 0 => .finite negative fraction (-1074)
  | 0x7FF => if fraction = 0 then .infinite negative else .nan negative
  | e => .finite negative (fraction + two 52) ((e : Int) - 1075)

end Binary

/-! ## Reading -/

def hexValue (c : Char) : Option Nat :=
  if c.isDigit then some (c.toNat - 48)
  else if 'a' ≤ c ∧ c ≤ 'f' then some (c.toNat - 87)
  else if 'A' ≤ c ∧ c ≤ 'F' then some (c.toNat - 55)
  else none

/-- Reads the digits of a base, with a point among them; answers with their value, how many stand behind the
point, how many there are, and what follows. -/
def readDigits (base : Nat) (value? : Char → Option Nat) :
    (value places count : Nat) → (pointed : Bool) → List Char → Nat × Nat × Nat × List Char
  | v, p, n, pointed, c :: rest =>
    match value? c with
    | some d => readDigits base value? (v * base + d) (if pointed then p + 1 else p) (n + 1) pointed rest
    | none =>
      if c = '.' ∧ !pointed then readDigits base value? v p n true rest else (v, p, n, c :: rest)
  | v, p, n, _, [] => (v, p, n, [])

/-- Reads an exponent that a letter begins; nothing is taken when no digits follow. -/
def readExponent (letter : Char) (t : List Char) : Int × List Char :=
  match t with
  | c :: rest =>
    if c.toLower ≠ letter then (0, t)
    else
      let (negative, ds) : Bool × List Char :=
        match rest with
        | '-' :: ds => (true, ds)
        | '+' :: ds => (false, ds)
        | ds => (false, ds)
      let digits := ds.takeWhile Char.isDigit
      if digits = [] then (0, t)
      else
        let n : Nat := digits.foldl (fun n c => min (n * 10 + (c.toNat - 48)) 100000) 0
        (if negative then -(n : Int) else n, ds.drop digits.length)
  | [] => (0, t)

/-- Reads the number that a text begins with; nothing when it begins with none. -/
def read? (w : Width) (t : List Char) : Option (Binary × List Char) :=
  let body := t.dropWhile fun c => c = ' ' || ('\t' ≤ c && c ≤ '\r')
  let (negative, body) : Bool × List Char :=
    match body with
    | '-' :: b => (true, b)
    | '+' :: b => (false, b)
    | b => (false, b)
  let lower := (body.take 8).map Char.toLower
  if "infinity".toList.isPrefixOf lower then some (.infinite negative, body.drop 8)
  else if "inf".toList.isPrefixOf lower then some (.infinite negative, body.drop 3)
  else if "nan".toList.isPrefixOf lower then some (.nan negative, body.drop 3)
  else
    let decimal : Option (Binary × List Char) :=
      let (v, places, count, rest) :=
        readDigits 10 (fun c => if c.isDigit then some (c.toNat - 48) else none) 0 0 0 false body
      if count = 0 then none
      else
        let (e, rest) := readExponent 'e' rest
        let e := e - places
        -- numbers far out of range need no digits
        if v ≠ 0 ∧ 20000 < e then some (.infinite negative, rest)
        else if v = 0 ∨ e < -40000 then some (.finite negative 0 0, rest)
        else if 0 ≤ e then some (.ofQuotient w negative (v * ten e.toNat) 1, rest)
        else some (.ofQuotient w negative v (ten (-e).toNat), rest)
    match body with
    | '0' :: x :: hex =>
      if x = 'x' ∨ x = 'X' then
        let (v, places, count, rest) := readDigits 16 hexValue 0 0 0 false hex
        if count = 0 then some (.finite negative 0 0, x :: hex)
        else
          let (e, rest) := readExponent 'p' rest
          let e := e - 4 * places
          some (if 0 ≤ e then .ofQuotient w negative (v * two e.toNat) 1
            else .ofQuotient w negative v (two (-e).toNat), rest)
      else decimal
    | _ => decimal

/-! ## Writing -/

/-- The digits of a number, filled up with zeros in front. -/
def padded (width n : Nat) : List Char :=
  let ds := Nat.toDigits 10 n
  List.replicate (width - ds.length) '0' ++ ds

/-- Puts a point before the last digits of a number. -/
def pointed (places : Nat) (keepPoint : Bool) (n : Nat) : List Char :=
  let ds := padded (places + 1) n
  let whole := ds.take (ds.length - places)
  if places = 0 then if keepPoint then whole ++ ['.'] else whole
  else whole ++ '.' :: ds.drop (ds.length - places)

def fixed (places : Nat) (keepPoint : Bool) (m : Nat) (e : Int) : List Char :=
  let (num, den) := Binary.quotient m e
  pointed places keepPoint (roundDiv (num * ten places) den)

/-- The digits of a number, one more than `places`, and the power of ten of the first one. -/
def scientificParts (places : Nat) (m : Nat) (e : Int) : Nat × Int :=
  if m = 0 then (0, 0)
  else
    let (num, den) := Binary.quotient m e
    -- a first guess at the power, never too large
    let guess : Int := ((Nat.toDigits 10 num).length : Int) - ((Nat.toDigits 10 den).length : Int) - 1
    let scaled (x : Int) : Nat :=
      let s : Int := places - x
      if 0 ≤ s then roundDiv (num * ten s.toNat) den else roundDiv num (den * ten (-s).toNat)
    let x := if ten (places + 1) ≤ scaled guess then guess + 1 else guess
    let x := if ten (places + 1) ≤ scaled x then x + 1 else x
    (scaled x, x)

/-- An exponent with its sign and at least two digits. -/
def exponentText (letter : Char) (x : Int) : List Char :=
  letter :: (if x < 0 then '-' else '+') :: padded 2 x.natAbs

def scientific (places : Nat) (keepPoint : Bool) (letter : Char) (m : Nat) (e : Int) : List Char :=
  let (n, x) := scientificParts places m e
  pointed places keepPoint n ++ exponentText letter x

/-- Drops the zeros at the end of the digits behind a point, and the point if none are left. -/
def trimmed (t : List Char) : List Char :=
  if t.contains '.' then
    let t := (t.reverse.dropWhile (· = '0')).reverse
    if t.getLast? = some '.' then t.dropLast else t
  else t

/-- A number with some digits, with an exponent if it is far from one. -/
def general (digits : Nat) (keepZeros : Bool) (letter : Char) (m : Nat) (e : Int) : List Char :=
  let p := max digits 1
  let (n, x) := scientificParts (p - 1) m e
  if x < -4 ∨ (p : Int) ≤ x then
    let t := pointed (p - 1) keepZeros n
    (if keepZeros then t else trimmed t) ++ exponentText letter x
  else
    let t := fixed ((p : Int) - 1 - x).toNat keepZeros m e
    if keepZeros then t else trimmed t

/-- How a number is written. -/
inductive Style where
  | fixed
  | scientific
  | general -- with an exponent if it is far from one
  deriving DecidableEq, Inhabited

/-- The text of a number without its sign; large letters if `capital`. -/
def write (style : Style) (capital : Bool) (precision : Nat) (keepPoint : Bool) : Binary → List Char
  | .infinite _ => if capital then "INF".toList else "inf".toList
  | .nan _ => if capital then "NAN".toList else "nan".toList
  | .finite _ m e =>
    let letter := if capital then 'E' else 'e'
    match style with
    | .fixed => fixed precision keepPoint m e
    | .scientific => scientific precision keepPoint letter m e
    | .general => general precision keepPoint letter m e

/-- Whether a number has a minus sign. -/
def Binary.isNegative : Binary → Bool
  | .finite n _ _ | .infinite n | .nan n => n

def Binary.isFinite : Binary → Bool
  | .finite _ _ _ => true
  | _ => false

end LuaTree.Decimal

import LuaTree.Text

/-!
# Secure hashes

The family of hashes that go over a message in blocks of sixteen words: the old one of five words, and those of
eight words of 32 or 64 bits. The constants of the latter are the fractional parts of roots of primes, and are
found here as such.
-/

namespace LuaTree.Digest

/-! ## Constants -/

/-- The first primes, from some number on. -/
def primesFrom : (fuel : Nat) → (n : Nat) → (count : Nat) → (found : List Nat) → List Nat
  | 0, _, _, found => found.reverse
  | _, _, 0, found => found.reverse
  | fuel + 1, n, count + 1, found =>
    if found.any (n % · = 0) then primesFrom fuel (n + 1) (count + 1) found
    else primesFrom fuel (n + 1) count (n :: found)

def primes : List Nat := primesFrom 500 2 80 []

/-- The greatest number below `low + size` whose image under a growing function is at most `goal`; `steps` are
as many as `size` has bits. -/
def rootFrom (power : Nat → Nat) (goal : Nat) : (steps : Nat) → (low size : Nat) → Nat
  | 0, low, _ => low
  | steps + 1, low, size =>
    let half := size / 2
    if power (low + half) ≤ goal then rootFrom power goal steps (low + half) half
    else rootFrom power goal steps low half

/-- The first 64 bits of the fractional part of a square root. -/
def squareRootBits (n : Nat) : UInt64 :=
  (rootFrom (fun k => k * k) (n <<< 128) 72 0 (1 <<< 72)).toUInt64

/-- The first 64 bits of the fractional part of a cubic root. -/
def cubicRootBits (n : Nat) : UInt64 :=
  (rootFrom (fun k => k * k * k) (n <<< 192) 72 0 (1 <<< 72)).toUInt64

def roundConstants : Array UInt64 := (primes.map cubicRootBits).toArray

/-- The words with which the hashes of a length of 256 and 512 bits begin. -/
def firstWords : List UInt64 := (primes.take 8).map squareRootBits

def otherWords : List UInt64 := ((primes.drop 8).take 8).map squareRootBits

/-! ## Messages -/

/-- The bytes of a number, the highest first. -/
def bytesOf : (count : Nat) → Nat → Bytes
  | 0, _ => []
  | count + 1, n => (n >>> (8 * count)).toUInt8 :: bytesOf count n

/-- The number that bytes spell, the highest first. -/
def ofBytesHigh (data : Bytes) : Nat := data.foldl (fun n b => n * 256 + b.toNat) 0

def pieces (size : Nat) : (fuel : Nat) → Bytes → List Bytes
  | 0, _ | _, [] => []
  | fuel + 1, data => data.take size :: pieces size fuel (data.drop size)

/-- A message filled up to whole blocks: a bit that is set, zeros, and its length in bits as written by
`tail`. -/
def padded (block lengthSize : Nat) (tail : Nat → Bytes) (data : Bytes) : Bytes :=
  let used := (data.length + 1 + lengthSize) % block
  let zeros := if used = 0 then 0 else block - used
  data ++ 0x80 :: List.replicate zeros 0 ++ tail (8 * data.length)

/-! ## Words of 32 bits -/

def turnLeft (x n : UInt32) : UInt32 := x <<< n ||| x >>> (32 - n)

def turnRight (x n : UInt32) : UInt32 := x >>> n ||| x <<< (32 - n)

/-- Chooses between bits. -/
def choice (x y z : UInt32) : UInt32 := (x &&& y) ^^^ (~~~x &&& z)

def majority (x y z : UInt32) : UInt32 := (x &&& y) ^^^ (x &&& z) ^^^ (y &&& z)

def words32 (block : Bytes) : Array UInt32 :=
  ((pieces 4 16 block).map fun b => (ofBytesHigh b).toUInt32).toArray

/-- Goes on to a number of words; the next one comes from those before. -/
def schedule {α : Type} (next : Array α → α) : (n : Nat) → Array α → Array α
  | 0, ws => ws
  | n + 1, ws => schedule next n (ws.push (next ws))

/-- The state of the old hash. -/
structure Five where
  a : UInt32
  b : UInt32
  c : UInt32
  d : UInt32
  e : UInt32

/-- A round of the old hash. -/
def Five.step (s : Five) (t : Nat) (w : UInt32) : Five :=
  let (f, k) : UInt32 × UInt32 :=
    if t < 20 then (choice s.b s.c s.d, 0x5A827999)
    else if t < 40 then (s.b ^^^ s.c ^^^ s.d, 0x6ED9EBA1)
    else if t < 60 then (majority s.b s.c s.d, 0x8F1BBCDC)
    else (s.b ^^^ s.c ^^^ s.d, 0xCA62C1D6)
  ⟨turnLeft s.a 5 + f + s.e + k + w, s.a, turnLeft s.b 30, s.c, s.d⟩

def Five.take (s : Five) (block : Bytes) : Five :=
  let next (ws : Array UInt32) : UInt32 :=
    let back (back : Nat) : UInt32 := ws.getD (ws.size - back) 0
    turnLeft (back 3 ^^^ back 8 ^^^ back 14 ^^^ back 16) 1
  let ws := schedule next 64 (words32 block)
  let t := ws.toList.zipIdx.foldl (fun t (w, n) => t.step n w) s
  ⟨s.a + t.a, s.b + t.b, s.c + t.c, s.d + t.d, s.e + t.e⟩

/-- The old hash, of 160 bits. -/
def sha1 (data : Bytes) : Bytes :=
  let whole := padded 64 8 (bytesOf 8) data
  let s := (pieces 64 (whole.length + 1) whole).foldl Five.take
    ⟨0x67452301, 0xEFCDAB89, 0x98BADCFE, 0x10325476, 0xC3D2E1F0⟩
  [s.a, s.b, s.c, s.d, s.e].flatMap fun w => bytesOf 4 w.toNat

/-- The state of a hash of eight words. -/
structure Eight (α : Type) where
  a : α
  b : α
  c : α
  d : α
  e : α
  f : α
  g : α
  h : α

namespace Eight

variable {α : Type}

def toList (s : Eight α) : List α := [s.a, s.b, s.c, s.d, s.e, s.f, s.g, s.h]

def ofList (zero : α) (ws : List α) : Eight α :=
  let word (n : Nat) : α := ws.getD n zero
  ⟨word 0, word 1, word 2, word 3, word 4, word 5, word 6, word 7⟩

/-- Adds two states word by word. -/
def plus [Add α] (s t : Eight α) : Eight α :=
  ⟨s.a + t.a, s.b + t.b, s.c + t.c, s.d + t.d, s.e + t.e, s.f + t.f, s.g + t.g, s.h + t.h⟩

/-- Moves the words on after a round that has made two sums. -/
def shift [Add α] (s : Eight α) (one two : α) : Eight α :=
  ⟨one + two, s.a, s.b, s.c, s.d + one, s.e, s.f, s.g⟩

end Eight

/-- A round with words of 32 bits. -/
def step32 (s : Eight UInt32) (k w : UInt32) : Eight UInt32 :=
  let one := s.h + (turnRight s.e 6 ^^^ turnRight s.e 11 ^^^ turnRight s.e 25) + choice s.e s.f s.g + k + w
  let two := (turnRight s.a 2 ^^^ turnRight s.a 13 ^^^ turnRight s.a 22) + majority s.a s.b s.c
  s.shift one two

def take32 (s : Eight UInt32) (block : Bytes) : Eight UInt32 :=
  let next (ws : Array UInt32) : UInt32 :=
    let back (n : Nat) : UInt32 := ws.getD (ws.size - n) 0
    let x := back 15
    let y := back 2
    back 16 + (turnRight x 7 ^^^ turnRight x 18 ^^^ x >>> 3) + back 7
      + (turnRight y 17 ^^^ turnRight y 19 ^^^ y >>> 10)
  let ws := schedule next 48 (words32 block)
  s.plus (ws.toList.zipIdx.foldl (fun t (w, n) => step32 t (roundConstants.getD n 0 >>> 32).toUInt32 w) s)

/-- A hash with words of 32 bits that begins with some words and keeps some of them. -/
def hash32 (first : List UInt32) (kept : Nat) (data : Bytes) : Bytes :=
  let whole := padded 64 8 (bytesOf 8) data
  let s := (pieces 64 (whole.length + 1) whole).foldl take32 (.ofList 0 first)
  (s.toList.take kept).flatMap fun w => bytesOf 4 w.toNat

def sha256 : Bytes → Bytes := hash32 (firstWords.map fun (w : UInt64) => (w >>> 32).toUInt32) 8

def sha224 : Bytes → Bytes := hash32 (otherWords.map UInt64.toUInt32) 7

/-! ## Words of 64 bits -/

def turnRight64 (x n : UInt64) : UInt64 := x >>> n ||| x <<< (64 - n)

/-- A round with words of 64 bits. -/
def step64 (s : Eight UInt64) (k w : UInt64) : Eight UInt64 :=
  let one := s.h + (turnRight64 s.e 14 ^^^ turnRight64 s.e 18 ^^^ turnRight64 s.e 41)
    + ((s.e &&& s.f) ^^^ (~~~s.e &&& s.g)) + k + w
  let two := (turnRight64 s.a 28 ^^^ turnRight64 s.a 34 ^^^ turnRight64 s.a 39)
    + ((s.a &&& s.b) ^^^ (s.a &&& s.c) ^^^ (s.b &&& s.c))
  s.shift one two

def take64 (s : Eight UInt64) (block : Bytes) : Eight UInt64 :=
  let next (ws : Array UInt64) : UInt64 :=
    let back (n : Nat) : UInt64 := ws.getD (ws.size - n) 0
    let x := back 15
    let y := back 2
    back 16 + (turnRight64 x 1 ^^^ turnRight64 x 8 ^^^ x >>> 7) + back 7
      + (turnRight64 y 19 ^^^ turnRight64 y 61 ^^^ y >>> 6)
  let words := ((pieces 8 16 block).map fun b => (ofBytesHigh b).toUInt64).toArray
  let ws := schedule next 64 words
  s.plus (ws.toList.zipIdx.foldl (fun t (w, n) => step64 t (roundConstants.getD n 0) w) s)

/-- A hash with words of 64 bits that begins with some words and keeps some of them. -/
def hash64 (first : List UInt64) (kept : Nat) (data : Bytes) : Bytes :=
  let whole := padded 128 16 (bytesOf 16) data
  let s := (pieces 128 (whole.length + 1) whole).foldl take64 (.ofList 0 first)
  (s.toList.take kept).flatMap fun w => bytesOf 8 w.toNat

def sha512 : Bytes → Bytes := hash64 firstWords 8

def sha384 : Bytes → Bytes := hash64 otherWords 6

end LuaTree.Digest

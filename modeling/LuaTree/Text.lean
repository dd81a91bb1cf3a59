/-!
# Text and bytes

Names and paths are lists of characters, file contents are lists of bytes. This module holds the
passage between them: UTF-8 encoding, the number of bytes a text takes, and the forgiving decoder
that turns every maximal ill-formed part of a byte string into one replacement character.

Ordering texts by code point is the same as ordering their encodings bytewise, so the order of
`List Char` is the order in which directory entries are sorted.
-/

namespace LuaTree

/-- The contents of a file or of an output stream. -/
abbrev Bytes := List UInt8

namespace Utf8

def encode (t : List Char) : Bytes := t.flatMap String.utf8EncodeChar

def byteLength : List Char → Nat
  | [] => 0
  | c :: t => c.utf8Size + byteLength t

@[simp] theorem byteLength_nil : byteLength [] = 0 := rfl

@[simp] theorem byteLength_append (s t : List Char) :
    byteLength (s ++ t) = byteLength s + byteLength t := by
  induction s with
  | nil => simp
  | cons c s ih => rw [List.cons_append, byteLength, byteLength, ih, Nat.add_assoc]

/-! ## The forgiving decoder -/

def replacement : Char := '\uFFFD'

/-- What a leading byte announces: how many continuation bytes follow, and the range that the first
of them must lie in. The ranges exclude overlong forms, surrogates and values past U+10FFFF. -/
def announced (b : UInt8) : Option (Nat × UInt8 × UInt8) :=
  if b < 0x80 then some (0, 0x80, 0xBF)
  else if b < 0xC2 then none
  else if b < 0xE0 then some (1, 0x80, 0xBF)
  else if b = 0xE0 then some (2, 0xA0, 0xBF)
  else if b = 0xED then some (2, 0x80, 0x9F)
  else if b < 0xF0 then some (2, 0x80, 0xBF)
  else if b = 0xF0 then some (3, 0x90, 0xBF)
  else if b < 0xF4 then some (3, 0x80, 0xBF)
  else if b = 0xF4 then some (3, 0x80, 0x8F)
  else none

/-- The continuation bytes that may follow, at most `n` of them, the first between `lo` and `hi`. -/
def continuations : Nat → UInt8 → UInt8 → Bytes → Bytes
  | n + 1, lo, hi, b :: rest =>
    if lo ≤ b && b ≤ hi then b :: continuations n 0x80 0xBF rest else []
  | _, _, _, _ => []

/-- The payload of a leading byte that announces `n` continuation bytes. -/
def leadPayload (b : UInt8) (n : Nat) : Nat :=
  match n with
  | 0 => b.toNat
  | 1 => b.toNat % 0x20
  | 2 => b.toNat % 0x10
  | _ => b.toNat % 0x08

/-- Reads one character or one maximal ill-formed part that starts with `b`; also tells how many of
the bytes after `b` belong to it. -/
def decodeOne (b : UInt8) (rest : Bytes) : Char × Nat :=
  match announced b with
  | none => (replacement, 0)
  | some (n, lo, hi) =>
    let more := continuations n lo hi rest
    if more.length = n then
      (Char.ofNat (more.foldl (fun v c => v * 64 + c.toNat % 64) (leadPayload b n)), n)
    else (replacement, more.length)

/-- Decodes a byte string, with one replacement character for every maximal ill-formed part. -/
def decodeLossy (bytes : Bytes) : List Char := go [] bytes
where
  -- decodes the rest, `read` holding the characters read so far, last one first
  go (read : List Char) : Bytes → List Char
    | [] => read.reverse
    | b :: rest =>
      let (c, n) := decodeOne b rest
      go (c :: read) (rest.drop n)
  termination_by bytes => bytes.length
  decreasing_by simp only [List.length_drop, List.length_cons]; omega

end Utf8

end LuaTree

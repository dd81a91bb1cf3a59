import LuaTree.Text

/-!
# Bytes as letters

Data written with the letters, digits and few signs of an alphabet, so many bits to a letter: the bits of a group
of bytes are dealt out to a group of letters, and a group that is not full ends in marks.
-/

namespace LuaTree.Digest

/-- A way to write bytes as letters. -/
structure Alphabet where
  letters : List Char -- the letters, by what they stand for
  bits : Nat
  group : Nat

namespace Alphabet

/-- Sixty-four letters, four for three bytes. -/
def base64 : Alphabet where
  letters := "ABCDEFGHIJKLMNOPQRSTUVWXYZabcdefghijklmnopqrstuvwxyz0123456789+/".toList
  bits := 6
  group := 4

/-- Thirty-two letters, eight for five bytes. -/
def base32 : Alphabet where
  letters := "ABCDEFGHIJKLMNOPQRSTUVWXYZ234567".toList
  bits := 5
  group := 8

def size (a : Alphabet) : Nat := a.bits * a.group / 8

def encodeGroup (a : Alphabet) (data : Bytes) : List Char :=
  let n := data.foldl (fun n b => n * 256 + b.toNat) 0 <<< (8 * (a.size - data.length))
  let used := (8 * data.length + a.bits - 1) / a.bits
  (List.range a.group).map fun k =>
    if k < used then a.letters.getD ((n >>> (a.bits * (a.group - 1 - k))) % (1 <<< a.bits)) '=' else '='

def encode (a : Alphabet) : (fuel : Nat) → Bytes → List Char
  | 0, _ | _, [] => []
  | fuel + 1, data => a.encodeGroup (data.take a.size) ++ a.encode fuel (data.drop a.size)

def value? (a : Alphabet) (c : Char) : Option Nat :=
  let n := a.letters.idxOf c
  if n < a.letters.length then some n else none

/-- The bytes that the beginning of a group tells, and whether the group is as it should be. -/
def decodeGroup (a : Alphabet) (t : List Char) : Bytes × Bool :=
  let values := (t.takeWhile fun c => (a.value? c).isSome).filterMap a.value?
  let marks := t.drop values.length
  let n := values.foldl (fun n v => n <<< a.bits + v) 0 <<< (a.bits * (a.group - values.length))
  let whole := a.bits * values.length / 8
  let data := (List.range whole).map fun k => (n >>> (8 * (a.size - 1 - k))).toUInt8
  let isFit : Bool :=
    t.length == a.group && marks.all (· = '=') && whole != 0
      && (8 * whole + a.bits - 1) / a.bits == values.length
  (data, isFit)

/-- The bytes that letters stand for, as far as they can be read, and whether all could. -/
def decode (a : Alphabet) : (fuel : Nat) → List Char → Bytes × Bool
  | 0, t => ([], t.isEmpty)
  | _ + 1, [] => ([], true)
  | fuel + 1, t =>
    let (data, isFit) := a.decodeGroup (t.take a.group)
    if isFit then
      let (rest, isWhole) := a.decode fuel (t.drop a.group)
      (data ++ rest, isWhole)
    else (data, false)

end Alphabet

end LuaTree.Digest

import LuaTree.Text

/-!
# Cyclic redundancy

A check sum that takes a file for a polynomial over two elements and keeps what is left when it is divided by a
fixed one; and the sums that just add up bytes.
-/

namespace LuaTree.Digest

/-- The polynomial by which is divided, without its highest power. -/
def crcPolynomial : UInt32 := 0x04C11DB7

/-- Takes in one bit position: the remainder is multiplied by the variable. -/
def crcShift (r : UInt32) : UInt32 := if r &&& 0x80000000 = 0 then r <<< 1 else r <<< 1 ^^^ crcPolynomial

/-- Takes in a number of positions. -/
def crcShifts : (n : Nat) → UInt32 → UInt32
  | 0, r => r
  | n + 1, r => crcShifts n (crcShift r)

def crcByte (r : UInt32) (b : UInt8) : UInt32 := crcShifts 8 (r ^^^ b.toUInt32 <<< 24)

/-- The bytes of a length, the lowest first, as many as it needs. -/
def lengthBytes : (fuel : Nat) → Nat → Bytes
  | 0, _ => []
  | fuel + 1, n => if n = 0 then [] else n.toUInt8 :: lengthBytes fuel (n / 256)

/-- The check sum of some bytes and of how many there are. -/
def crc (data : Bytes) : UInt32 := ~~~((data ++ lengthBytes 8 data.length).foldl crcByte 0)

/-- A sum of sixteen bits that is turned round before each byte is added. -/
def rotatedSum (data : Bytes) : Nat :=
  data.foldl (fun s b => (s / 2 + s % 2 * 0x8000 + b.toNat) % 0x10000) 0

/-- The sum of all bytes, folded into sixteen bits. -/
def foldedSum (data : Bytes) : Nat :=
  let s := data.foldl (fun s b => s + b.toNat) 0 % 0x100000000
  let r := s % 0x10000 + s / 0x10000
  r % 0x10000 + r / 0x10000

end LuaTree.Digest

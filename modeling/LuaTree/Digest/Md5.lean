import LuaTree.Digest.Sha

/-!
# Message digests

The fifth message digest: four words of 32 bits, written with the lowest byte first, that take in blocks of
sixteen words in four rounds of sixteen steps.
-/

namespace LuaTree.Digest

namespace Md5

/-- The constants of the steps: the first 32 bits of the sines of the numbers from one on, without sign. -/
def sines : Array UInt32 := #[
  0xd76aa478, 0xe8c7b756, 0x242070db, 0xc1bdceee, 0xf57c0faf, 0x4787c62a, 0xa8304613, 0xfd469501,
  0x698098d8, 0x8b44f7af, 0xffff5bb1, 0x895cd7be, 0x6b901122, 0xfd987193, 0xa679438e, 0x49b40821,
  0xf61e2562, 0xc040b340, 0x265e5a51, 0xe9b6c7aa, 0xd62f105d, 0x02441453, 0xd8a1e681, 0xe7d3fbc8,
  0x21e1cde6, 0xc33707d6, 0xf4d50d87, 0x455a14ed, 0xa9e3e905, 0xfcefa3f8, 0x676f02d9, 0x8d2a4c8a,
  0xfffa3942, 0x8771f681, 0x6d9d6122, 0xfde5380c, 0xa4beea44, 0x4bdecfa9, 0xf6bb4b60, 0xbebfbc70,
  0x289b7ec6, 0xeaa127fa, 0xd4ef3085, 0x04881d05, 0xd9d4d039, 0xe6db99e5, 0x1fa27cf8, 0xc4ac5665,
  0xf4292244, 0x432aff97, 0xab9423a7, 0xfc93a039, 0x655b59c3, 0x8f0ccc92, 0xffeff47d, 0x85845dd1,
  0x6fa87e4f, 0xfe2ce6e0, 0xa3014314, 0x4e0811a1, 0xf7537e82, 0xbd3af235, 0x2ad7d2bb, 0xeb86d391]

def turns (step : Nat) : UInt32 :=
  let row : List UInt32 := match step / 16 with
    | 0 => [7, 12, 17, 22]
    | 1 => [5, 9, 14, 20]
    | 2 => [4, 11, 16, 23]
    | _ => [6, 10, 15, 21]
  row.getD (step % 4) 0

/-- The state. -/
structure State where
  a : UInt32
  b : UInt32
  c : UInt32
  d : UInt32

def State.step (ws : Array UInt32) (s : State) (n : Nat) : State :=
  let (f, g) : UInt32 × Nat := match n / 16 with
    | 0 => (choice s.b s.c s.d, n)
    | 1 => (choice s.d s.b s.c, 5 * n + 1)
    | 2 => (s.b ^^^ s.c ^^^ s.d, 3 * n + 5)
    | _ => (s.c ^^^ (s.b ||| ~~~s.d), 7 * n)
  let sum := s.a + f + sines.getD n 0 + ws.getD (g % 16) 0
  ⟨s.d, s.b + turnLeft sum (turns n), s.b, s.c⟩

def State.take (s : State) (block : Bytes) : State :=
  let ws := ((pieces 4 16 block).map fun b => (ofBytesHigh b.reverse).toUInt32).toArray
  let t := (List.range 64).foldl (State.step ws) s
  ⟨s.a + t.a, s.b + t.b, s.c + t.c, s.d + t.d⟩

end Md5

def md5 (data : Bytes) : Bytes :=
  let whole := padded 64 8 (fun n => (bytesOf 8 n).reverse) data
  let s := (pieces 64 (whole.length + 1) whole).foldl Md5.State.take
    ⟨0x67452301, 0xefcdab89, 0x98badcfe, 0x10325476⟩
  [s.a, s.b, s.c, s.d].flatMap fun w => (bytesOf 4 w.toNat).reverse

end LuaTree.Digest

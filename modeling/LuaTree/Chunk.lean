import LuaTree.Error
import LuaTree.Store.Update

/-!
# Compiled chunks

A compiled Lua 5.1 chunk starts with an escape byte, `Lua` and the version byte `Q`. The test looks at
the four bytes after the first one only; the rest of the header is the decompiler's business.
-/

namespace LuaTree.Chunk

/-- The marker of a compiled chunk. -/
def magic : Bytes := [0x4C, 0x75, 0x61, 0x51]

def magicOffset : Nat := 1

/-- How many bytes the test needs. -/
def headerLength : Nat := magicOffset + magic.length

/-- Whether bytes carry the marker; fewer than `headerLength` never do. -/
def hasHeader (data : Bytes) : Bool := (data.drop magicOffset).take magic.length = magic

/-- Bytes carry the marker exactly when they are one byte, the marker, and anything. -/
theorem hasHeader_iff (data : Bytes) : hasHeader data ↔ ∃ b rest, data = b :: (magic ++ rest) := by
  constructor
  · intro h
    match data with
    | [] => simp [hasHeader, magicOffset, magic] at h
    | b :: tail =>
      have h : tail.take magic.length = magic := by simpa [hasHeader, magicOffset] using h
      have split := List.take_append_drop magic.length tail
      rw [h] at split
      exact ⟨b, tail.drop magic.length, by rw [split]⟩
  · rintro ⟨b, rest, rfl⟩
    simp [hasHeader, magicOffset]

/-- Whether the file that a path leads to is a compiled chunk, by its first bytes. -/
def isCompiled (s : Store) (cwd : Location) (p : PathText) : Except Error Bool :=
  match s.openRead cwd p with
  | .error cause => .error (.fileOpen p cause)
  | .ok h =>
    match s.readUpTo headerLength h with
    | .error cause => .error (.fileRead p cause)
    | .ok header => .ok (hasHeader header)

end LuaTree.Chunk

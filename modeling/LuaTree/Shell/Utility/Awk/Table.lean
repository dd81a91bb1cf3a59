import LuaTree.Shell.Utility.Awk.Basic
import Std.Data.HashMap

/-!
# Tables

A table holds values under keys, which are texts. Its keys are gone through row by row: a hash of the key tells
its row, and within a row the key that was used last comes first.

A key that is a whole number gets its place in a row only when the table is first used with another key or is
gone through; until then it stands in a row of numbers. The `view` of a table forgets all of that and tells only
which value stands under which key.
-/

namespace LuaTree.Shell.Awk

/-- Texts are hashed character by character. -/
instance : Hashable Raw := @instHashableList Char instHashableChar

def rowCount : Nat := 64

/-- A key: a text, or a whole number that stands for one. -/
inductive Key where
  | whole (n : Int)
  | text (t : Raw)
  deriving DecidableEq, Inhabited

def Key.toText : Key → Raw
  | .whole n => Raw.ofInt n
  | .text t => t

/-- A table. -/
structure Table where
  cells : Std.HashMap Raw Value := {}
  rows : Array (List Raw) := Array.replicate rowCount []
  wholes : Array (List Int) := Array.replicate rowCount [] -- the keys in the rows of numbers
  isOrdered : Bool := false -- whether the keys that are numbers have their places among the others

namespace Table

instance : Inhabited Table := ⟨{}⟩

def hash (t : Raw) : Nat :=
  (t.foldl (fun (h : UInt32) c => (h ^^^ c.toNat.toUInt32) * 16777619) 2166136261).toNat

def rowOf (t : Raw) : Nat := hash t % rowCount

def wholeRow (n : Int) : Nat := (n % rowCount).toNat

/-- Moves something to the front of a list, where it need not have been. -/
def toFront {α : Type} [BEq α] (a : α) (l : List α) : List α := a :: l.erase a

def size (t : Table) : Nat := t.cells.size

def get? (t : Table) (k : Key) : Option Value := t.cells.get? k.toText

def holds (t : Table) (k : Key) : Bool := t.cells.contains k.toText

/-- Gives the numbers among the keys their places. -/
def ordered (t : Table) : Table :=
  if t.isOrdered then t
  else
    let rows := t.wholes.toList.flatten.foldl (fun rows n =>
      let text := Raw.ofInt n
      rows.modify (rowOf text) fun row => if row.contains text then row else text :: row) t.rows
    { t with rows, isOrdered := true }

def touchText (t : Table) (x : Raw) : Table :=
  let t := t.ordered
  { t with rows := t.rows.modify (rowOf x) (toFront x) }

def touch (t : Table) : Key → Table
  | .text x => t.touchText x
  | .whole n =>
    let isNew := !((t.wholes.getD (wholeRow n) []).contains n)
    let t := if t.isOrdered && isNew then t.touchText (Raw.ofInt n) else t
    { t with wholes := t.wholes.modify (wholeRow n) (toFront n) }

def insert (t : Table) (k : Key) (v : Value) : Table :=
  let t := t.touch k
  { t with cells := t.cells.insert k.toText v }

/-- What stands under a key, which is there afterwards. -/
def demand (t : Table) (k : Key) : Value × Table :=
  match t.get? k with
  | some v => (v, t.touch k)
  | none => (.unset, t.insert k .unset)

def erase (t : Table) (k : Key) : Table :=
  let x := k.toText
  if t.cells.contains x then
    { t with
      cells := t.cells.erase x
      rows := t.rows.modify (rowOf x) (·.erase x)
      wholes := match Raw.int? x with
        | some n => t.wholes.modify (wholeRow n) (·.erase n)
        | none => t.wholes }
  else t

def keys (t : Table) : List Raw := t.ordered.rows.toList.flatten

def ofList (vs : List Value) : Table :=
  vs.zipIdx.foldl (fun t (v, n) => t.insert (.whole (n + 1 : Nat)) v) {}

end Table

end LuaTree.Shell.Awk

import LuaTree.Notice
import LuaTree.Plan.Basic

/-!
# Reports

What became of the items of a batch. A `BatchReport` has one `ItemReport` for every item, in the order
of the items; the counts are read off the list.
-/

namespace LuaTree

/-- What became of a work item. -/
structure ItemReport where
  item : WorkItem
  result : Except Error Outcome -- its outcome, or the error that stopped it
  deriving Inhabited

namespace ItemReport

def isOk (r : ItemReport) : Bool := r.result.isOk

def error? (r : ItemReport) : Option Error :=
  match r.result with
  | .ok _ => none
  | .error e => some e

def hasOutcome (outcome : Outcome) (r : ItemReport) : Bool :=
  match r.result with
  | .ok o => o = outcome
  | .error _ => false

end ItemReport

/-- What became of the items of a batch. -/
structure BatchReport where
  items : List ItemReport
  deriving Inhabited

namespace BatchReport

def size (b : BatchReport) : Nat := b.items.length

def isEmpty (b : BatchReport) : Bool := b.items.isEmpty

def converted (b : BatchReport) : Nat := b.items.countP (·.hasOutcome .converted)

def copied (b : BatchReport) : Nat := b.items.countP (·.hasOutcome .copied)

def failures (b : BatchReport) : List ItemReport := b.items.filter fun r => !r.isOk

def failed (b : BatchReport) : Nat := b.failures.length

end BatchReport

end LuaTree

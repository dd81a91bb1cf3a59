import LuaTree.Convert.Item

/-!
# Converting a batch

A batch converts its items one after the other, each in the store that the earlier ones left, and
never stops at a failure. With several jobs the items may be interleaved; the order in which they are
listed here is one of the possible schedules, and the report has the order of the items under any.
-/

namespace LuaTree

/-- What converting a batch did. -/
structure BatchRun where
  runs : List ItemRun -- what each item did, in the order in which they finished
  store : Store
  notices : List Notice -- what the batch itself had to say before its items
  deriving Inhabited

namespace BatchRun

def report (b : BatchRun) : BatchReport := ⟨b.runs.map (·.report)⟩

/-- The sources that the decompiler was asked for, in order. -/
def decompiled (b : BatchRun) : List PathText :=
  b.runs.flatMap fun r => r.notices.filterMap fun
    | .decompiling source => some source
    | _ => none

end BatchRun

def convertItems (d : Decompiler) (cwd : Location) : Store → List WorkItem → List ItemRun × Store
  | s, [] => ([], s)
  | s, item :: rest =>
    let run := convertItem d cwd s item
    let (runs, s) := convertItems d cwd run.store rest
    (run :: runs, s)

/-- Whether a batch uses several jobs at once. -/
def isPooled (jobs items : Nat) : Bool := 1 < jobs && 1 < items

/-- Converts a batch. -/
def convertBatch (d : Decompiler) (cwd : Location) (jobs : Nat) (s : Store)
    (items : List WorkItem) : BatchRun :=
  let (runs, store) := convertItems d cwd s items
  { runs, store
    notices := if isPooled jobs items.length then [.pooled items.length jobs] else [] }

/-- Plans and converts an input. Only an input that cannot be used is an error. -/
def convertPath (d : Decompiler) (cwd : Location) (jobs : Nat) (s : Store) (input : PathText) :
    Except Error (Plan × BatchRun) :=
  (Plan.ofInput s cwd input).map fun plan => (plan, convertBatch d cwd jobs s plan.items)

end LuaTree

import LuaTree.Convert.Batch

/-!
# Schedules

With several jobs the stages of different items come in some order of which only this is known: the
stages of one item keep theirs. A `BatchState` is a batch on its way, `BatchState.step` takes the next
stage of one of its items, and a schedule is the list of the items whose turn it is, by number. Every
interleaving of the stages is a schedule; so is converting the items one after the other
(`BatchState.sequential`).
-/

namespace LuaTree

/-- A batch on its way. -/
structure BatchState where
  jobs : List (WorkItem × Stage) -- the items, each with how far it is
  store : Store
  deriving Inhabited

namespace BatchState

def initial (s : Store) (items : List WorkItem) : BatchState :=
  ⟨items.map fun item => (item, .prepare), s⟩

/-- Takes the next stage of the item with number `k`. -/
def step (d : Decompiler) (cwd : Location) (b : BatchState) (k : Nat) : BatchState :=
  match b.jobs[k]? with
  | none => b
  | some (item, stage) =>
    let st := ItemState.step d cwd item { stage, store := b.store, notices := [] }
    { jobs := b.jobs.set k (item, st.stage), store := st.store }

def run (d : Decompiler) (cwd : Location) (b : BatchState) (schedule : List Nat) : BatchState :=
  schedule.foldl (step d cwd) b

def isDone (b : BatchState) : Bool := b.jobs.all fun (_, stage) => stage.result?.isSome

/-- What became of the items, in their order. -/
def report (b : BatchState) : BatchReport :=
  ⟨b.jobs.map fun (item, stage) => ⟨item, stage.result?.getD (.ok .copied)⟩⟩

/-- The schedule that converts a number of items one after the other. -/
def sequential (items : Nat) : List Nat :=
  (List.range items).flatMap (List.replicate ItemState.stageCount)

/-- In the course of a schedule the decompiler was asked for item `k` and gave this answer. -/
def Answered (d : Decompiler) (cwd : Location) (b : BatchState) (schedule : List Nat) (k : Nat)
    (answer : Except Error ProcessOutput) : Prop :=
  ∃ before after item, schedule = before ++ k :: after ∧
    (b.run d cwd before).jobs[k]? = some (item, .decompile) ∧
    (d.decompile (b.run d cwd before).store item.source).result = answer

end BatchState

end LuaTree

import LuaTree.Chunk
import LuaTree.Convert.Report
import LuaTree.Convert.Writer
import LuaTree.Decompiler

/-!
# Converting one item

An item goes through stages: the directory above its destination is created, its source is
classified, and then it is either copied, or decompiled and what the decompiler printed is published.
A stage that fails ends the item.

`ItemState.step` takes one stage; `convertItem` takes them all. An item is done after at most
`stageCount` stages, and taking more changes nothing.
-/

namespace LuaTree

/-- How far an item is. -/
inductive Stage where
  | prepare -- the directory above the destination is next
  | classify
  | copy -- the source goes to the destination as it is
  | decompile -- the source goes through the decompiler
  | publish (data : Bytes) -- the decompiler's output goes to the destination
  | done (result : Except Error Outcome)
  deriving Inhabited

def Stage.result? : Stage → Option (Except Error Outcome)
  | .done r => some r
  | _ => none

/-- An item on its way. -/
structure ItemState where
  stage : Stage
  store : Store
  notices : List Notice -- what it had to say so far
  deriving Inhabited

namespace ItemState

def initial (s : Store) : ItemState := ⟨.prepare, s, []⟩

def step (d : Decompiler) (cwd : Location) (item : WorkItem) (st : ItemState) : ItemState :=
  match st.stage with
  | .prepare =>
    match ensureParent st.store cwd item.destination with
    | (.ok (), s) => { st with stage := .classify, store := s }
    | (.error e, s) => { st with stage := .done (.error e), store := s }
  | .classify =>
    match Chunk.isCompiled st.store cwd item.source with
    | .ok false => { st with stage := .copy, notices := st.notices ++ [.copying item.source] }
    | .ok true =>
      { st with stage := .decompile, notices := st.notices ++ [.decompiling item.source] }
    | .error e => { st with stage := .done (.error e) }
  | .copy =>
    match copyVerbatim st.store cwd item.source item.destination with
    | (.ok (), s) => { st with stage := .done (.ok .copied), store := s }
    | (.error e, s) => { st with stage := .done (.error e), store := s }
  | .decompile =>
    let answer := d.decompile st.store item.source
    let stage :=
      match answer.result with
      | .error e => .done (.error e)
      | .ok output =>
        if output.success then .publish output.stdout
        else .done (.error (.decompilerFailed item.source output))
    { stage, store := answer.store, notices := st.notices ++ answer.notices }
  | .publish data =>
    match LuaTree.publish st.store cwd item.destination data with
    | (.ok (), s) => { st with stage := .done (.ok .converted), store := s }
    | (.error e, s) => { st with stage := .done (.error e), store := s }
  | .done _ => st

def stageCount : Nat := 4

/-- Takes several stages. -/
def steps (d : Decompiler) (cwd : Location) (item : WorkItem) : Nat → ItemState → ItemState
  | 0, st => st
  | n + 1, st => steps d cwd item n (step d cwd item st)

def result? (st : ItemState) : Option (Except Error Outcome) := st.stage.result?

end ItemState

/-- What converting an item did. -/
structure ItemRun where
  report : ItemReport
  store : Store
  notices : List Notice
  deriving Inhabited

/-- Converts one item. -/
def convertItem (d : Decompiler) (cwd : Location) (s : Store) (item : WorkItem) : ItemRun :=
  let st := ItemState.steps d cwd item ItemState.stageCount (.initial s)
  { report := ⟨item, st.result?.getD (.ok .copied)⟩
    store := st.store
    notices := st.notices }

end LuaTree

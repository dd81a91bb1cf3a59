import LuaTree.Convert.Schedule

/-!
# Traces

A batch as it is seen from outside: what was said and which items finished, in the order in which it
happened, what became of the items, and the store afterwards. A `Converter` is a way of getting there.

* `Converter.inOrder` converts the items one after the other;
* `Converter.scheduled` does so as well unless several jobs are asked for: then the stages of different
  items come in the order of a schedule;
* `Converter.unpooled` was asked for several jobs, got no workers for them, and says so before it
  converts the items one after the other.
-/

namespace LuaTree

/-- Something that happens in the course of a batch. -/
inductive BatchEvent where
  | said (n : Notice)
  | finished (r : ItemReport)
  deriving Inhabited

/-- A batch as it is seen from outside. -/
structure BatchTrace where
  events : List BatchEvent -- what happened, in this order
  report : BatchReport -- what became of the items, in their order
  store : Store
  deriving Inhabited

def ItemRun.events (r : ItemRun) : List BatchEvent := r.notices.map .said ++ [.finished r.report]

/-- A batch whose items were converted one after the other, seen from outside. -/
def BatchRun.trace (b : BatchRun) : BatchTrace where
  events := b.notices.map .said ++ b.runs.flatMap (·.events)
  report := b.report
  store := b.store

namespace BatchState

/-- What happens when the item with number `k` takes its next stage. -/
def eventsAt (d : Decompiler) (cwd : Location) (b : BatchState) (k : Nat) : List BatchEvent :=
  match b.jobs[k]? with
  | none => []
  | some (item, stage) =>
    let st := ItemState.step d cwd item { stage, store := b.store, notices := [] }
    st.notices.map .said ++
      match stage.result?, st.result? with
      | none, some result => [.finished ⟨item, result⟩]
      | _, _ => []

/-- What happens under a schedule. -/
def events (d : Decompiler) (cwd : Location) (b : BatchState) : List Nat → List BatchEvent
  | [] => []
  | k :: schedule => b.eventsAt d cwd k ++ events d cwd (b.step d cwd k) schedule

end BatchState

/-- A way of converting items with a number of jobs. -/
abbrev Converter := Decompiler → Location → (jobs : Nat) → Store → List WorkItem → BatchTrace

namespace Converter

def inOrder : Converter := fun d cwd jobs s items => (convertBatch d cwd jobs s items).trace

/-- Converts the items under a schedule, where there are several of them and several jobs. -/
def scheduled (schedule : List Nat) : Converter := fun d cwd jobs s items =>
  if isPooled jobs items.length then
    let b := BatchState.initial s items
    { events := .said (.pooled items.length jobs) :: b.events d cwd schedule
      report := (b.run d cwd schedule).report
      store := (b.run d cwd schedule).store }
  else inOrder d cwd jobs s items

/-- Converts the items one after the other, for want of workers where there should be several. -/
def unpooled (cause : String) : Converter := fun d cwd jobs s items =>
  if isPooled jobs items.length then
    let (runs, store) := convertItems d cwd s items
    { events := .said (.unpooled cause) :: runs.flatMap (·.events)
      report := ⟨runs.map (·.report)⟩
      store }
  else inOrder d cwd jobs s items

end Converter

/-- What comes of asking for several workers. -/
inductive Pool where
  -- they are there, and the stages of their items come in the order of a schedule
  | working (schedule : List Nat)
  | refused (cause : String)
  deriving Inhabited

/-- How a batch is converted, given what comes of asking for workers. -/
def Pool.converter : Pool → Converter
  | .working schedule => .scheduled schedule
  | .refused cause => .unpooled cause

/-- Plans an input and converts it in some way. Only an input that cannot be used is an error. -/
def convertPathBy (converter : Converter) (d : Decompiler) (cwd : Location) (jobs : Nat) (s : Store)
    (input : PathText) : Except Error (Plan × BatchTrace) :=
  (Plan.ofInput s cwd input).map fun plan => (plan, converter d cwd jobs s plan.items)

end LuaTree

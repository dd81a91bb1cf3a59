import LuaTree.Proofs.Convert.Trace
import Mathlib.Data.List.Basic

/-!
# Accounting for a batch

However a batch is converted, its report has one entry for each item, in their order, and each entry is
what one item finished with: `finished_step` says so of one turn, `finished_run` of a schedule. Where no
workers run, the items go through the stores one after the other (`exists_stores`). The counts of a
report, and the failures it lists, are read off its entries (`exists_places`).
-/

namespace LuaTree

variable {d : Decompiler} {cwd : Location} {item : WorkItem}

/-! ## What was finished -/

/-- The report of an item, once it is done. -/
def Stage.report? (item : WorkItem) (stage : Stage) : Option ItemReport :=
  stage.result?.map fun result => ⟨item, result⟩

/-- A stage reports what the item is done with, unless it was done before. -/
theorem Stage.finished_news (item : WorkItem) (before after : Stage)
    (stays : before.result?.isSome → after = before) :
    (before.news item after).filterMap (·.finished?) ++ (before.report? item).toList =
      (after.report? item).toList := by
  cases hb : before.result? with
  | some result =>
    rw [Stage.news_of_done hb, stays (by rw [hb]; rfl)]
    rfl
  | none =>
    unfold Stage.news Stage.report?
    rw [hb]
    cases after.result? <;> rfl

namespace BatchState

variable {b : BatchState}

/-- The reports of the items that are done. -/
def reports (b : BatchState) : List ItemReport :=
  b.jobs.flatMap fun (item, stage) => (stage.report? item).toList

theorem reports_initial (s : Store) (items : List WorkItem) : (initial s items).reports = [] := by
  unfold reports initial
  induction items with
  | nil => rfl
  | cons item items ih => exact ih

theorem reports_of_isDone (h : b.isDone) : b.reports = b.report.items := by
  obtain ⟨jobs, store⟩ := b
  unfold reports report isDone at *
  dsimp only at h ⊢
  induction jobs with
  | nil => rfl
  | cons job jobs ih =>
    rw [List.all_cons, Bool.and_eq_true] at h
    obtain ⟨result, hr⟩ := Option.isSome_iff_exists.1 h.1
    rw [List.flatMap_cons, List.map_cons, ih h.2, Stage.report?, hr]
    rfl

/-- Where a member of a list comes to give more than it gave, the list gives that much more. -/
theorem perm_flatMap_set {α β : Type} {f : α → List β} {xs : List α} {k : Nat} {old new : α}
    {more : List β} (found : xs[k]? = some old) (grown : more ++ f old = f new) :
    (more ++ xs.flatMap f).Perm ((xs.set k new).flatMap f) := by
  induction xs generalizing k with
  | nil => cases found
  | cons x xs ih =>
    cases k with
    | zero =>
      cases found
      rw [List.set_cons_zero, List.flatMap_cons, List.flatMap_cons, ← grown, List.append_assoc]
    | succ k =>
      rw [List.set_cons_succ, List.flatMap_cons, List.flatMap_cons]
      exact (List.perm_append_comm_assoc more (f x) _).trans ((ih found).append_left (f x))

/-- A turn finishes at most one item, and then the report of that item is new. -/
theorem finished_step (d : Decompiler) (cwd : Location) (b : BatchState) (k : Nat) :
    ((b.eventsAt d cwd k).filterMap (·.finished?) ++ b.reports).Perm (b.step d cwd k).reports := by
  cases hk : b.jobs[k]? with
  | none =>
    rw [eventsAt, hk, step_of_none hk]
    exact .rfl
  | some job =>
    obtain ⟨item, stage⟩ := job
    have stays (done : stage.result?.isSome) :
        (ItemState.step d cwd item ⟨stage, b.store, []⟩).stage = stage := by
      obtain ⟨result, hr⟩ := Option.isSome_iff_exists.1 done
      exact congrArg ItemState.stage (ItemState.steps_of_result ⟨stage, b.store, []⟩ hr 1)
    rw [eventsAt_of_some hk, step_of_some hk, List.filterMap_append, filterMap_finished?_said,
      List.nil_append]
    exact perm_flatMap_set hk (Stage.finished_news item stage _ stays)

/-- Under a schedule the items that finish are those that were not done before and are done then. -/
theorem finished_run (d : Decompiler) (cwd : Location) (b : BatchState) (schedule : List Nat) :
    ((b.events d cwd schedule).filterMap (·.finished?) ++ b.reports).Perm
      (b.run d cwd schedule).reports := by
  induction schedule generalizing b with
  | nil => exact .rfl
  | cons k schedule ih =>
    have turn := (finished_step d cwd b k).append_left
      (((b.step d cwd k).events d cwd schedule).filterMap (·.finished?))
    rw [events, List.filterMap_append]
    refine List.Perm.trans ?_ (turn.trans (ih (b.step d cwd k)))
    rw [← List.append_assoc]
    exact List.perm_append_comm.append_right b.reports

end BatchState

/-! ## One after the other -/

/-- Items that are converted one after the other go through a row of stores: each of them starts in the
store that the one before it left, however that one ended. -/
theorem exists_stores (d : Decompiler) (cwd : Location) (s : Store) (items : List WorkItem) :
    ∃ stores : Nat → Store, stores 0 = s ∧ stores items.length = (convertItems d cwd s items).2 ∧
      ∀ k item, items[k]? = some item →
        (convertItems d cwd s items).1[k]? = some (convertItem d cwd (stores k) item) ∧
        stores (k + 1) = (convertItem d cwd (stores k) item).store := by
  induction items generalizing s with
  | nil =>
    refine ⟨fun _ => s, rfl, rfl, ?_⟩
    intro k item hk
    cases hk
  | cons first items ih =>
    obtain ⟨stores, start, final, each⟩ := ih (convertItem d cwd s first).store
    refine ⟨fun k => k.casesOn s stores, rfl, final, ?_⟩
    intro k item hk
    cases k with
    | zero =>
      cases hk
      exact ⟨rfl, start⟩
    | succ k => exact each k item hk

namespace Converter

/-- Converted in order, each item ends as it does alone in the store that the items before it left. -/
theorem exists_stores_inOrder (d : Decompiler) (cwd : Location) (jobs : Nat) (s : Store)
    (items : List WorkItem) : ∃ stores : Nat → Store, stores 0 = s ∧
      stores items.length = (inOrder d cwd jobs s items).store ∧ ∀ k item, items[k]? = some item →
        (inOrder d cwd jobs s items).report.items[k]? =
          some (convertItem d cwd (stores k) item).report ∧
        stores (k + 1) = (convertItem d cwd (stores k) item).store := by
  obtain ⟨stores, start, final, each⟩ := exists_stores d cwd s items
  refine ⟨stores, start, final, ?_⟩
  intro k item hk
  obtain ⟨run, next⟩ := each k item hk
  refine ⟨?_, next⟩
  show ((convertItems d cwd s items).1.map (·.report))[k]? = _
  rw [List.getElem?_map, run]
  rfl

/-- Without workers the same is done as in order; only another thing is said before. -/
theorem unpooled_eq (cause : String) (d : Decompiler) (cwd : Location) (jobs : Nat) (s : Store)
    (items : List WorkItem) :
    (unpooled cause d cwd jobs s items).report = (inOrder d cwd jobs s items).report ∧
    (unpooled cause d cwd jobs s items).store = (inOrder d cwd jobs s items).store ∧
    (unpooled cause d cwd jobs s items).events.filterMap (·.finished?) =
      (inOrder d cwd jobs s items).events.filterMap (·.finished?) := by
  unfold unpooled
  split
  · refine ⟨rfl, rfl, ?_⟩
    show ((convertItems d cwd s items).1.flatMap (·.events)).filterMap (·.finished?) =
      (List.map BatchEvent.said _ ++ (convertItems d cwd s items).1.flatMap (·.events)).filterMap
        (·.finished?)
    rw [List.filterMap_append, filterMap_finished?_said, List.nil_append]
  · exact ⟨rfl, rfl, rfl⟩

/-- Unless there are workers for several items, the items are converted in order. -/
theorem alone_eq (d : Decompiler) (cwd : Location) {jobs : Nat} (s : Store) {items : List WorkItem}
    {pool : Pool} (alone : jobs ≤ 1 ∨ items.length ≤ 1 ∨ ∃ cause, pool = .refused cause) :
    (pool.converter d cwd jobs s items).report = (inOrder d cwd jobs s items).report ∧
    (pool.converter d cwd jobs s items).store = (inOrder d cwd jobs s items).store ∧
    (pool.converter d cwd jobs s items).events.filterMap (·.finished?) =
      (inOrder d cwd jobs s items).events.filterMap (·.finished?) := by
  cases pool with
  | refused cause => exact unpooled_eq cause d cwd jobs s items
  | working schedule =>
    have single : ¬isPooled jobs items.length := by
      simp only [isPooled, Bool.and_eq_true, decide_eq_true_eq]
      simp only [reduceCtorEq, exists_false, or_false] at alone
      omega
    show (scheduled schedule d cwd jobs s items).report = _ ∧ _
    rw [Pool.converter, scheduled, if_neg single]
    exact ⟨rfl, rfl, rfl⟩

/-- Under a schedule that comes to an end, each entry of the report is what one item finished with. -/
theorem perm_finished_scheduled {schedule : List Nat} {jobs : Nat} {s : Store} {items : List WorkItem}
    (pooled : isPooled jobs items.length)
    (done : ((BatchState.initial s items).run d cwd schedule).isDone) :
    ((scheduled schedule d cwd jobs s items).events.filterMap (·.finished?)).Perm
      (scheduled schedule d cwd jobs s items).report.items := by
  have whole := BatchState.finished_run d cwd (BatchState.initial s items) schedule
  rw [BatchState.reports_initial, List.append_nil, BatchState.reports_of_isDone done] at whole
  unfold scheduled
  rw [if_pos pooled]
  exact whole

end Converter

/-! ## The failures of a report -/

/-- A filtered list holds what stands at the places that pass the test, in their order. -/
theorem exists_places {α : Type} (test : α → Bool) (xs : List α) : ∃ places : List Nat,
    places.Pairwise (· < ·) ∧ (∀ k, k ∈ places ↔ ∃ x, xs[k]? = some x ∧ test x) ∧
      (xs.filter test).map some = places.map (xs[·]?) := by
  refine ⟨(List.range xs.length).filter fun k => (xs[k]?).any test,
    List.pairwise_lt_range.filter _, ?_, ?_⟩
  · intro k
    rw [List.mem_filter, List.mem_range, Option.any_eq_true]
    constructor
    · exact And.right
    · rintro ⟨x, hk, hx⟩
      exact ⟨(List.getElem?_eq_some_iff.1 hk).1, x, hk, hx⟩
  · have every : xs.map some = (List.range xs.length).map (xs[·]?) := by
      apply List.ext_getElem
      · simp
      · intro k hk hk'
        simp
    have kept : (xs.filter test).map some = (xs.map some).filter fun x => x.any test := by
      rw [List.filter_map]
      rfl
    rw [kept, every, List.filter_map]
    rfl

theorem ItemReport.not_isOk_iff (r : ItemReport) : (!r.isOk) = true ↔ ∃ e, r.result = .error e := by
  obtain ⟨item, result⟩ := r
  cases result <;> simp [isOk, Except.isOk, Except.toBool]

/-- The accounts of a batch, for every decompiler, every store, any number of jobs, every list of items
(one item may be listed twice, or read what another one writes), and whatever comes of asking for workers,
who do not leave before their items are done:

* the report has one entry for each item, in the order of the items, and with that item;
* the items finish with the entries of the report, each of them once;
* with one job or one item at most, or without workers, the items are converted one after the other: each
  ends as it does alone in the store that the items before it left, and they finish in their order;
* of any report, the counts add up to its size, and its failures are the entries with an error, in order. -/
theorem batch_accounted (d : Decompiler) (cwd : Location) (jobs : Nat) (s : Store)
    (items : List WorkItem) (pool : Pool)
    (finish : isPooled jobs items.length → ∀ schedule, pool = .working schedule →
      ((BatchState.initial s items).run d cwd schedule).isDone) :
    let batch := pool.converter d cwd jobs s items
    batch.report.items.map (·.item) = items ∧
    (batch.events.filterMap (·.finished?)).Perm batch.report.items ∧
    (jobs ≤ 1 ∨ items.length ≤ 1 ∨ (∃ cause, pool = .refused cause) →
      batch.events.filterMap (·.finished?) = batch.report.items ∧
      ∃ stores : Nat → Store, stores 0 = s ∧ stores items.length = batch.store ∧
        ∀ k item, items[k]? = some item →
          batch.report.items[k]? = some (convertItem d cwd (stores k) item).report ∧
          stores (k + 1) = (convertItem d cwd (stores k) item).store) ∧
    ∀ report : BatchReport, report.converted + report.copied + report.failed = report.size ∧
      ∃ places : List Nat, places.Pairwise (· < ·) ∧
        (∀ k, k ∈ places ↔ ∃ r e, report.items[k]? = some r ∧ r.result = .error e) ∧
        report.failures.map some = places.map (report.items[·]?) := by
  intro batch
  have failures (report : BatchReport) : ∃ places : List Nat, places.Pairwise (· < ·) ∧
      (∀ k, k ∈ places ↔ ∃ r e, report.items[k]? = some r ∧ r.result = .error e) ∧
      report.failures.map some = places.map (report.items[·]?) := by
    obtain ⟨places, sorted, mem, kept⟩ := exists_places (fun r : ItemReport => !r.isOk) report.items
    refine ⟨places, sorted, fun k => ?_, kept⟩
    rw [mem]
    refine exists_congr fun r => ?_
    rw [r.not_isOk_iff, exists_and_left]
  by_cases alone : jobs ≤ 1 ∨ items.length ≤ 1 ∨ ∃ cause, pool = .refused cause
  · obtain ⟨report, store, finished⟩ := Converter.alone_eq d cwd s alone
    have order : batch.events.filterMap (·.finished?) = batch.report.items := by
      rw [finished, report]
      exact Converter.finished_inOrder d cwd jobs s items
    refine ⟨?_, List.Perm.of_eq order, fun _ => ⟨order, ?_⟩, fun report => ⟨report.size_eq, failures report⟩⟩
    · rw [report]
      exact Converter.items_inOrder d cwd jobs s items
    · rw [report, store]
      exact Converter.exists_stores_inOrder d cwd jobs s items
  · -- several workers have several items to convert
    rw [not_or, not_or] at alone
    obtain ⟨jobs_lt, items_lt, working⟩ := alone
    have pooled : isPooled jobs items.length := by
      simp only [isPooled, Bool.and_eq_true, decide_eq_true_eq]
      omega
    cases pool with
    | refused cause => exact absurd ⟨cause, rfl⟩ working
    | working schedule =>
      refine ⟨Converter.items_scheduled schedule d cwd jobs s items,
        Converter.perm_finished_scheduled pooled (finish pooled schedule rfl), ?_,
        fun report => ⟨report.size_eq, failures report⟩⟩
      simp [jobs_lt, items_lt]

/-- Items that get in each other's way: one is listed twice, one reads what that one writes, and one reads
what is not there. -/
def tangledItems : List WorkItem :=
  [⟨['a'], ['b']⟩, ⟨['b'], ['c']⟩, ⟨['a'], ['b']⟩, ⟨['x'], ['y']⟩]

/-- Two workers that take turns with the stages of those items. -/
theorem batch_accounted_tangledItems :
    let s := Store.empty.putFile [['a']] ⟨[7], 0o644⟩
    let d := Decompiler.constant (.ok ⟨[], [], some 0⟩)
    let turns := (List.replicate 4 (List.range 4)).flatten
    let batch := (Pool.working turns).converter d [] 2 s tangledItems
    ((BatchState.initial s tangledItems).run d [] turns).isDone ∧
      batch.report.items.map (·.item) = tangledItems ∧
      (batch.events.filterMap (·.finished?)).Perm batch.report.items ∧
      batch.report.converted + batch.report.copied + batch.report.failed = 4 := by
  intro s d turns batch
  have done : ((BatchState.initial s tangledItems).run d [] turns).isDone := by
    have fair : ∀ k < 4, ItemState.stageCount ≤ turns.count k := by decide
    exact BatchState.isDone_of_count fair
  obtain ⟨items, finished, _, counts⟩ := batch_accounted d [] 2 s tangledItems (.working turns)
    fun _ schedule h => by
      cases h
      exact done
  refine ⟨done, items, finished, ?_⟩
  rw [(counts batch.report).1, BatchReport.size, ← List.length_map (·.item), items]
  rfl

end LuaTree

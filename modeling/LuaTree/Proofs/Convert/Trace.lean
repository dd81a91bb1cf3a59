import LuaTree.Convert.Trace
import LuaTree.Proofs.Convert.Runs

/-!
# What a batch is seen to do

Converting the items in order is one of the schedules, and not only by where it ends: the same things
happen in the same order (`events_sequential`). So every converter is seen to do what a schedule does
(`exists_schedule`), and a fact about what happens has to be proved of one turn of one item.

* `said_scheduled`: what holds of the notices of a turn holds of all that is said;
* `finished_inOrder`: converted in order, the items finish in their order;
* `items_scheduled`, `BatchReport.size_eq`: the report has every item, and its counts add up.
-/

namespace LuaTree

variable {d : Decompiler} {cwd : Location} {item : WorkItem}

/-- The report of an item that finished. -/
def BatchEvent.finished? : BatchEvent → Option ItemReport
  | .said _ => none
  | .finished r => some r

theorem filterMap_finished?_said (ns : List Notice) :
    (ns.map BatchEvent.said).filterMap (·.finished?) = [] := by
  induction ns with
  | nil => rfl
  | cons n ns ih => exact ih

/-! ## What an item says -/

namespace ItemState

/-- A stage adds to what was said, whatever that was. -/
theorem notices_step (stage : Stage) (s : Store) (notices : List Notice) :
    (step d cwd item ⟨stage, s, notices⟩).notices =
      notices ++ (step d cwd item ⟨stage, s, []⟩).notices := by
  cases stage with
  | prepare | copy | publish _ =>
    unfold step
    dsimp only
    split <;> exact (List.append_nil notices).symm
  | classify =>
    unfold step
    dsimp only
    split
    · rfl
    · rfl
    · exact (List.append_nil notices).symm
  | decompile => rfl
  | done _ => exact (List.append_nil notices).symm

theorem notices_steps (n : Nat) (st : ItemState) :
    (steps d cwd item n st).notices =
      st.notices ++ (steps d cwd item n ⟨st.stage, st.store, []⟩).notices := by
  induction n generalizing st with
  | zero => exact (List.append_nil st.notices).symm
  | succ n ih =>
    have alike : Alike (step d cwd item st) (step d cwd item ⟨st.stage, st.store, []⟩) :=
      Alike.step (fun _ => ⟨rfl, rfl⟩) ⟨rfl, rfl⟩
    obtain ⟨stage, store⟩ := alike
    show (steps d cwd item n (step d cwd item st)).notices =
      st.notices ++ (steps d cwd item n (step d cwd item ⟨st.stage, st.store, []⟩)).notices
    rw [ih (step d cwd item st), ih (step d cwd item ⟨st.stage, st.store, []⟩), stage, store,
      notices_step st.stage st.store st.notices, List.append_assoc]

/-- What an item says in one stage: which way it goes, or what the decompiler has to say. -/
theorem notice_of_step {stage : Stage} {s : Store} {n : Notice}
    (h : n ∈ (step d cwd item ⟨stage, s, []⟩).notices) :
    n = .copying item.source ∨ n = .decompiling item.source ∨
      n ∈ (d.decompile s item.source).notices := by
  unfold step at h
  cases stage with
  | prepare | copy | publish _ =>
    dsimp only at h
    split at h <;> cases h
  | classify =>
    dsimp only at h
    split at h
    · exact .inl (List.mem_singleton.1 h)
    · exact .inr (.inl (List.mem_singleton.1 h))
    · cases h
  | decompile => exact .inr (.inr h)
  | done _ => cases h

end ItemState

/-- The reports of an item that has come from one stage to another. -/
def Stage.news (item : WorkItem) (before after : Stage) : List BatchEvent :=
  match before.result?, after.result? with
  | none, some result => [.finished ⟨item, result⟩]
  | _, _ => []

theorem Stage.news_of_done {before : Stage} {result : Except Error Outcome}
    (h : before.result? = some result) (after : Stage) : before.news item after = [] := by
  unfold news
  rw [h]

theorem Stage.news_of_pending (before : Stage) {after : Stage} (h : after.result? = none) :
    before.news item after = [] := by
  unfold news
  rw [h]
  cases before.result? <;> rfl

theorem Stage.news_congr {before before' : Stage} (h : before.result? = none)
    (h' : before'.result? = none) (after : Stage) :
    before.news item after = before'.news item after := by
  unfold news
  rw [h, h']

/-- What is done stays as it is. -/
theorem ItemState.steps_of_result (st : ItemState) {result : Except Error Outcome}
    (h : st.stage.result? = some result) (n : Nat) : ItemState.steps d cwd item n st = st := by
  obtain ⟨_, done⟩ := Stage.exists_done ((Stage.isSome_result? st.stage).1 (by rw [h]; rfl))
  induction n with
  | zero => rfl
  | succ n ih =>
    rw [ItemState.steps_succ, ih]
    exact ItemState.step_of_done done

/-! ## What happens under a schedule -/

namespace BatchState

variable {b : BatchState} {s : Store} {items : List WorkItem}

theorem events_append (schedule rest : List Nat) : b.events d cwd (schedule ++ rest) =
    b.events d cwd schedule ++ (b.run d cwd schedule).events d cwd rest := by
  induction schedule generalizing b with
  | nil => rfl
  | cons k schedule ih =>
    rw [List.cons_append, events, events, ih, List.append_assoc]
    rfl

theorem eventsAt_of_some {k : Nat} {stage : Stage} (h : b.jobs[k]? = some (item, stage)) :
    b.eventsAt d cwd k = (ItemState.step d cwd item ⟨stage, b.store, []⟩).notices.map .said ++
      stage.news item (ItemState.step d cwd item ⟨stage, b.store, []⟩).stage := by
  rw [eventsAt, h]
  rfl

/-- Several turns of one item in a row are seen to be several of its stages. -/
theorem events_replicate (d : Decompiler) (cwd : Location) {k : Nat} {stage : Stage}
    (h : b.jobs[k]? = some (item, stage)) (n : Nat) :
    b.events d cwd (List.replicate n k) =
      (ItemState.steps d cwd item n ⟨stage, b.store, []⟩).notices.map .said ++
        stage.news item (ItemState.steps d cwd item n ⟨stage, b.store, []⟩).stage := by
  induction n generalizing b stage with
  | zero =>
    show [] = stage.news item stage
    unfold Stage.news
    cases stage.result? <;> rfl
  | succ n ih =>
    have turn := ih (b := b.step d cwd k) (getElem?_step_self h)
    rw [step_of_some h] at turn
    rw [List.replicate_succ, events, step_of_some h, turn, eventsAt_of_some h]
    show _ = (ItemState.steps d cwd item n (ItemState.step d cwd item ⟨stage, b.store, []⟩)).notices.map
      .said ++ stage.news item
        (ItemState.steps d cwd item n (ItemState.step d cwd item ⟨stage, b.store, []⟩)).stage
    generalize hst : ItemState.step d cwd item ⟨stage, b.store, []⟩ = st
    obtain ⟨hstage, _⟩ := (ItemState.Alike.steps (d := d) cwd (fun _ => ⟨rfl, rfl⟩)
      (⟨rfl, rfl⟩ : ItemState.Alike st ⟨st.stage, st.store, []⟩) n)
    rw [ItemState.notices_steps n st, hstage, List.map_append, List.append_assoc, List.append_assoc]
    refine congrArg (List.map BatchEvent.said st.notices ++ ·) ?_
    -- once the item is done it has nothing more to say
    cases hr : st.stage.result? with
    | some result =>
      rw [ItemState.steps_of_result ⟨st.stage, st.store, []⟩ hr n, Stage.news_of_done hr]
      exact List.append_nil _
    | none =>
      have pending : stage.result? = none := by
        cases hb : stage.result? with
        | none => rfl
        | some result =>
          have stays : ItemState.step d cwd item ⟨stage, b.store, []⟩ = ⟨stage, b.store, []⟩ :=
            ItemState.steps_of_result ⟨stage, b.store, []⟩ hb 1
          rw [← hst, stays, hb] at hr
          cases hr
      rw [Stage.news_of_pending stage hr, Stage.news_congr pending hr]
      rfl

/-- Converting items behind others is seen to do what the items do one after the other. -/
theorem events_sequential_from (d : Decompiler) (cwd : Location) (front : List (WorkItem × Stage))
    (s : Store) (items : List WorkItem) :
    (BatchState.mk (front ++ items.map fun item => (item, .prepare)) s).events d cwd
        ((List.range' front.length items.length).flatMap (List.replicate ItemState.stageCount)) =
      (convertItems d cwd s items).1.flatMap (·.events) := by
  induction items generalizing front s with
  | nil => rfl
  | cons item items ih =>
    have here : (front ++ (item, Stage.prepare) :: items.map fun item => (item, Stage.prepare))[
        front.length]? = some (item, .prepare) := by
      rw [List.getElem?_append_right (Nat.le_refl _), Nat.sub_self]
      rfl
    have own := events_replicate d cwd
      (b := ⟨front ++ (item, .prepare) :: items.map fun item => (item, .prepare), s⟩) here
      ItemState.stageCount
    have others := ih
      (front ++ [(item, (ItemState.steps d cwd item ItemState.stageCount (.initial s)).stage)])
      (convertItem d cwd s item).store
    rw [List.length_append, List.length_singleton] at others
    have whole : Stage.news item .prepare
        (ItemState.steps d cwd item ItemState.stageCount (.initial s)).stage =
        [.finished (convertItem d cwd s item).report] := by
      obtain ⟨result, hr⟩ := Stage.exists_done
        (ItemState.rank_steps_stageCount d cwd item (.initial s))
      rw [convertItem, ItemState.result?, Stage.news, hr]
      rfl
    rw [List.length_cons, List.range'_succ, List.flatMap_cons, events_append, List.map_cons, own,
      run_turns, others]
    show _ ++ Stage.news item .prepare (ItemState.steps d cwd item _ (.initial s)).stage ++ _ = _
    rw [whole]
    rfl

/-- Converting items in order is seen to do what the sequential schedule does. -/
theorem events_sequential (d : Decompiler) (cwd : Location) (s : Store) (items : List WorkItem) :
    (initial s items).events d cwd (sequential items.length) =
      (convertItems d cwd s items).1.flatMap (·.events) := by
  rw [sequential, List.range_eq_range']
  exact events_sequential_from d cwd [] s items

/-- All that is said in the course of a schedule is said by items and the decompiler. -/
theorem said_events {P : Notice → Prop} (copying : ∀ p, P (.copying p))
    (decompiling : ∀ p, P (.decompiling p))
    (answers : ∀ s p, ∀ n ∈ (d.decompile s p).notices, P n) (schedule : List Nat) :
    ∀ n, .said n ∈ b.events d cwd schedule → P n := by
  -- on the schedule, from whatever the batch has come to
  induction schedule generalizing b with
  | nil =>
    intro n h
    cases h
  | cons k schedule ih =>
    intro n h
    rcases List.mem_append.1 h with h | h
    · cases hk : b.jobs[k]? with
      | none =>
        rw [eventsAt, hk] at h
        cases h
      | some job =>
        obtain ⟨item, stage⟩ := job
        rw [eventsAt_of_some hk] at h
        rcases List.mem_append.1 h with h | h
        · obtain ⟨m, hm, he⟩ := List.mem_map.1 h
          cases he
          rcases ItemState.notice_of_step hm with rfl | rfl | hm
          · exact copying _
          · exact decompiling _
          · exact answers _ _ n hm
        · unfold Stage.news at h
          split at h
          · cases List.mem_singleton.1 h
          · cases h
    · exact ih n h

end BatchState

/-! ## What a converter does -/

namespace Converter

variable {s : Store} {items : List WorkItem} {jobs : Nat}

/-- What is said before the items have their turns. -/
def greeting (jobs items : Nat) : List Notice :=
  if isPooled jobs items then [.pooled items jobs] else []

theorem inOrder_eq (d : Decompiler) (cwd : Location) (jobs : Nat) (s : Store) (items : List WorkItem) :
    let b := BatchState.initial s items
    let order := BatchState.sequential items.length
    inOrder d cwd jobs s items =
      { events := (greeting jobs items.length).map .said ++ b.events d cwd order
        report := (b.run d cwd order).report
        store := (b.run d cwd order).store } := by
  obtain ⟨store, report, _⟩ := BatchState.run_sequential d cwd jobs s items
  dsimp only
  rw [BatchState.events_sequential, store, report]
  rfl

/-- A converter does what some schedule does, whatever schedule it is given. -/
theorem exists_schedule (d : Decompiler) (cwd : Location) (jobs : Nat) (s : Store)
    (items : List WorkItem) (schedule : List Nat) :
    let b := BatchState.initial s items
    ∃ order, (isPooled jobs items.length → order = schedule) ∧
      scheduled schedule d cwd jobs s items =
        { events := (greeting jobs items.length).map .said ++ b.events d cwd order
          report := (b.run d cwd order).report
          store := (b.run d cwd order).store } := by
  unfold scheduled
  by_cases hp : isPooled jobs items.length
  · rw [if_pos hp, greeting, if_pos hp]
    exact ⟨schedule, fun _ => rfl, rfl⟩
  · rw [if_neg hp]
    exact ⟨_, fun h => absurd h hp, inOrder_eq d cwd jobs s items⟩

/-- Converting in order is one of the schedules. -/
theorem scheduled_sequential (d : Decompiler) (cwd : Location) (jobs : Nat) (s : Store)
    (items : List WorkItem) :
    scheduled (BatchState.sequential items.length) d cwd jobs s items = inOrder d cwd jobs s items := by
  obtain ⟨order, same, run⟩ :=
    exists_schedule d cwd jobs s items (BatchState.sequential items.length)
  by_cases hp : isPooled jobs items.length
  · rw [run, same hp, inOrder_eq]
  · rw [scheduled, if_neg hp]

/-- With one job there is nothing to schedule. -/
theorem scheduled_of_le_one (h : jobs ≤ 1) (schedule : List Nat) (d : Decompiler) (cwd : Location)
    (s : Store) (items : List WorkItem) :
    scheduled schedule d cwd jobs s items = inOrder d cwd jobs s items := by
  have single : ¬isPooled jobs items.length := by
    simp only [isPooled, Bool.and_eq_true, decide_eq_true_eq]
    omega
  rw [scheduled, if_neg single]

/-- No jobs are as good as one. -/
theorem scheduled_max_one (schedule : List Nat) (d : Decompiler) (cwd : Location) (jobs : Nat) (s : Store)
    (items : List WorkItem) :
    scheduled schedule d cwd (max jobs 1) s items = scheduled schedule d cwd jobs s items := by
  cases jobs with
  | zero =>
    rw [scheduled_of_le_one (Nat.le_refl (max 0 1)), scheduled_of_le_one (Nat.zero_le 1)]
    rfl
  | succ jobs => rw [Nat.max_eq_left (Nat.succ_le_succ (Nat.zero_le jobs))]

/-- What holds of what items and decompilers say holds of all that is said. -/
theorem said_scheduled {P : Notice → Prop} (pooled : ∀ items jobs, P (.pooled items jobs))
    (copying : ∀ p, P (.copying p)) (decompiling : ∀ p, P (.decompiling p))
    (answers : ∀ s p, ∀ n ∈ (d.decompile s p).notices, P n) (schedule : List Nat) (jobs : Nat) (s : Store)
    (items : List WorkItem) :
    ∀ n, .said n ∈ (scheduled schedule d cwd jobs s items).events → P n := by
  intro n h
  obtain ⟨order, _, run⟩ := exists_schedule d cwd jobs s items schedule
  rw [run] at h
  rcases List.mem_append.1 h with h | h
  · obtain ⟨m, hm, he⟩ := List.mem_map.1 h
    cases he
    unfold greeting at hm
    split at hm
    · rw [List.mem_singleton.1 hm]
      exact pooled _ _
    · cases hm
  · exact BatchState.said_events copying decompiling answers order n h

/-- The report has one entry for every item, in their order. -/
theorem items_scheduled (schedule : List Nat) (d : Decompiler) (cwd : Location) (jobs : Nat) (s : Store)
    (items : List WorkItem) :
    (scheduled schedule d cwd jobs s items).report.items.map (·.item) = items := by
  obtain ⟨order, _, run⟩ := exists_schedule d cwd jobs s items schedule
  have stay : ((BatchState.initial s items).run d cwd order).jobs.map Prod.fst = _ :=
    BatchState.items_run order
  rw [BatchState.items_initial] at stay
  rw [run, BatchState.report, List.map_map]
  exact stay

theorem items_inOrder (d : Decompiler) (cwd : Location) (jobs : Nat) (s : Store)
    (items : List WorkItem) : (inOrder d cwd jobs s items).report.items.map (·.item) = items := by
  rw [← scheduled_sequential]
  exact items_scheduled _ d cwd jobs s items

/-- Converted in order, the items finish in their order. -/
theorem finished_inOrder (d : Decompiler) (cwd : Location) (jobs : Nat) (s : Store)
    (items : List WorkItem) :
    (inOrder d cwd jobs s items).events.filterMap (·.finished?) =
      (inOrder d cwd jobs s items).report.items := by
  have each : ∀ runs : List ItemRun,
      (runs.flatMap (·.events)).filterMap (·.finished?) = runs.map (·.report) := by
    intro runs
    induction runs with
    | nil => rfl
    | cons r runs ih =>
      rw [List.flatMap_cons, List.filterMap_append, ih, ItemRun.events, List.filterMap_append,
        filterMap_finished?_said]
      rfl
  show List.filterMap _ (_ ++ List.flatMap _ _) = _
  rw [List.filterMap_append, filterMap_finished?_said, each]
  rfl

end Converter

/-! ## A whole conversion -/

section Paths

variable {converter : Converter} {jobs : Nat} {s : Store} {input : PathText} {plan : Plan}

theorem convertPathBy_eq_error {e : Error} : convertPathBy converter d cwd jobs s input = .error e ↔
    Plan.ofInput s cwd input = .error e := by
  unfold convertPathBy
  cases Plan.ofInput s cwd input with
  | error _ => simp [Except.map]
  | ok plan => simp [Except.map]

theorem convertPathBy_eq_ok {batch : BatchTrace} :
    convertPathBy converter d cwd jobs s input = .ok (plan, batch) ↔
      Plan.ofInput s cwd input = .ok plan ∧ converter d cwd jobs s plan.items = batch := by
  unfold convertPathBy
  cases Plan.ofInput s cwd input with
  | error _ => simp [Except.map]
  | ok found =>
    simp only [Except.map, Except.ok.injEq, Prod.mk.injEq]
    constructor
    · rintro ⟨rfl, rfl⟩
      exact ⟨rfl, rfl⟩
    · rintro ⟨rfl, rfl⟩
      exact ⟨rfl, rfl⟩

/-- A conversion depends on what its converter does with the items of the plan only. -/
theorem convertPathBy_congr {converter' : Converter}
    (same : ∀ plan, Plan.ofInput s cwd input = .ok plan →
      converter d cwd jobs s plan.items = converter' d cwd jobs s plan.items) :
    convertPathBy converter d cwd jobs s input = convertPathBy converter' d cwd jobs s input := by
  unfold convertPathBy
  cases planned : Plan.ofInput s cwd input with
  | error _ => rfl
  | ok plan =>
    show Except.ok (plan, converter d cwd jobs s plan.items) = _
    rw [same plan planned]
    rfl

theorem convertPathBy_inOrder (d : Decompiler) (cwd : Location) (jobs : Nat) (s : Store)
    (input : PathText) : convertPathBy .inOrder d cwd jobs s input =
      (convertPath d cwd jobs s input).map fun r => (r.1, r.2.trace) := by
  unfold convertPathBy convertPath
  cases Plan.ofInput s cwd input <;> rfl

end Paths

/-! ## Counts -/

/-- An item was converted, was copied or failed. -/
theorem ItemReport.counted_once (r : ItemReport) :
    (if r.hasOutcome .converted then 1 else 0) + (if r.hasOutcome .copied then 1 else 0) +
      (if !r.isOk then 1 else 0) = 1 := by
  obtain ⟨item, result⟩ := r
  cases result with
  | ok outcome => cases outcome <;> rfl
  | error e => rfl

/-- The counts of a report add up to the number of its items. -/
theorem BatchReport.size_eq (b : BatchReport) : b.converted + b.copied + b.failed = b.size := by
  obtain ⟨items⟩ := b
  unfold converted copied failed failures size
  dsimp only
  rw [← List.countP_eq_length_filter]
  induction items with
  | nil => rfl
  | cons r items ih =>
    have once := r.counted_once
    rw [List.countP_cons, List.countP_cons, List.countP_cons, List.length_cons]
    omega

end LuaTree

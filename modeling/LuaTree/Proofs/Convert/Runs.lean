import LuaTree.Convert.Schedule

/-!
# Runs of a batch

What holds of a batch on its way, whatever its stages do: the items and their order stay
(`items_run`), a stage is never taken back (`rank_step`), so an item is decompiled once at most
(`Answered.unique`). A batch that is converted one item after the other is one of the runs
(`run_sequential`), and after it every item is done.
-/

namespace LuaTree

variable {d : Decompiler} {cwd : Location} {item : WorkItem}

/-- A decompiler that leaves the store alone. -/
def Decompiler.Quiet (d : Decompiler) : Prop := ∀ s p, (d.decompile s p).store = s

/-- The decompiler that answers the same about everything. -/
def Decompiler.constant (answer : Except Error ProcessOutput) : Decompiler :=
  ⟨fun s _ => { result := answer, store := s }⟩

/-! ## One item -/

/-- How many stages an item has behind it at least. -/
def Stage.rank : Stage → Nat
  | .prepare => 0
  | .classify => 1
  | .copy | .decompile => 2
  | .publish _ => 3
  | .done _ => 4

theorem Stage.isSome_result? (stage : Stage) : stage.result?.isSome ↔ stage.rank = 4 := by
  cases stage <;> simp [result?, rank]

theorem Stage.exists_done {stage : Stage} (h : stage.rank = 4) : ∃ result, stage = .done result := by
  cases stage with
  | done result => exact ⟨result, rfl⟩
  | prepare | classify | copy | decompile | publish _ => cases h

theorem Stage.rank_le (stage : Stage) : stage.rank ≤ 4 := by
  cases stage <;> simp [rank]

namespace ItemState

/-! What each stage leads to. -/

theorem step_prepare (s : Store) (notices : List Notice) :
    step d cwd item ⟨.prepare, s, notices⟩ =
      match ensureParent s cwd item.destination with
      | (.ok (), u) => ⟨.classify, u, notices⟩
      | (.error e, u) => ⟨.done (.error e), u, notices⟩ := rfl

theorem step_classify (s : Store) (notices : List Notice) :
    step d cwd item ⟨.classify, s, notices⟩ =
      match Chunk.isCompiled s cwd item.source with
      | .ok false => ⟨.copy, s, notices ++ [.copying item.source]⟩
      | .ok true => ⟨.decompile, s, notices ++ [.decompiling item.source]⟩
      | .error e => ⟨.done (.error e), s, notices⟩ := rfl

theorem step_copy (s : Store) (notices : List Notice) :
    step d cwd item ⟨.copy, s, notices⟩ =
      match copyVerbatim s cwd item.source item.destination with
      | (.ok (), u) => ⟨.done (.ok .copied), u, notices⟩
      | (.error e, u) => ⟨.done (.error e), u, notices⟩ := rfl

theorem step_decompile (s : Store) (notices : List Notice) :
    step d cwd item ⟨.decompile, s, notices⟩ =
      ⟨match (d.decompile s item.source).result with
        | .error e => .done (.error e)
        | .ok output =>
          if output.success then .publish output.stdout
          else .done (.error (.decompilerFailed item.source output)),
        (d.decompile s item.source).store, notices ++ (d.decompile s item.source).notices⟩ := rfl

theorem step_publish (data : Bytes) (s : Store) (notices : List Notice) :
    step d cwd item ⟨.publish data, s, notices⟩ =
      match LuaTree.publish s cwd item.destination data with
      | (.ok (), u) => ⟨.done (.ok .converted), u, notices⟩
      | (.error e, u) => ⟨.done (.error e), u, notices⟩ := rfl

/-- Two states that differ in what was said only. -/
def Alike (st st' : ItemState) : Prop := st.stage = st'.stage ∧ st.store = st'.store

/-- What an item has said makes no difference to what it does, nor does another decompiler that does
the same to its source. -/
theorem Alike.step {d' : Decompiler} {st st' : ItemState}
    (same : ∀ s, (d.decompile s item.source).result = (d'.decompile s item.source).result ∧
      (d.decompile s item.source).store = (d'.decompile s item.source).store) (h : Alike st st') :
    Alike (step d cwd item st) (step d' cwd item st') := by
  obtain ⟨stage, store, notices⟩ := st
  obtain ⟨stage', store', notices'⟩ := st'
  obtain ⟨rfl, rfl⟩ : stage = stage' ∧ store = store' := h
  cases stage with
  | prepare =>
    rw [step_prepare, step_prepare]
    split <;> exact ⟨rfl, rfl⟩
  | classify =>
    rw [step_classify, step_classify]
    split <;> exact ⟨rfl, rfl⟩
  | copy =>
    rw [step_copy, step_copy]
    split <;> exact ⟨rfl, rfl⟩
  | decompile =>
    obtain ⟨result, left⟩ := same store
    refine ⟨?_, left⟩
    rw [step_decompile, step_decompile, result]
  | publish data =>
    rw [step_publish, step_publish]
    split <;> exact ⟨rfl, rfl⟩
  | done result => exact ⟨rfl, rfl⟩

theorem Alike.steps {d' : Decompiler} (cwd : Location)
    (same : ∀ s, (d.decompile s item.source).result = (d'.decompile s item.source).result ∧
      (d.decompile s item.source).store = (d'.decompile s item.source).store) {st st' : ItemState}
    (h : Alike st st') (n : Nat) : Alike (steps d cwd item n st) (steps d' cwd item n st') := by
  induction n generalizing st st' with
  | zero => exact h
  | succ n ih => exact ih (h.step same)

/-- A stage is never taken back, and only an item that is done stays where it is. -/
theorem rank_step (d : Decompiler) (cwd : Location) (item : WorkItem) (st : ItemState) :
    (step d cwd item st).stage.rank = 4 ∨ st.stage.rank < (step d cwd item st).stage.rank := by
  obtain ⟨stage, store, notices⟩ := st
  -- a stage leads to the next one or to the end
  cases stage with
  | prepare =>
    rw [step_prepare]
    split
    · exact .inr Nat.zero_lt_one
    · exact .inl rfl
  | classify =>
    rw [step_classify]
    split
    · exact .inr (Nat.lt_succ_self 1)
    · exact .inr (Nat.lt_succ_self 1)
    · exact .inl rfl
  | copy =>
    rw [step_copy]
    split <;> exact .inl rfl
  | decompile =>
    rw [step_decompile]
    dsimp only
    split
    · exact .inl rfl
    · split
      · exact .inr (Nat.lt_succ_self 2)
      · exact .inl rfl
  | publish data =>
    rw [step_publish]
    split <;> exact .inl rfl
  | done result => exact .inl rfl

theorem store_prepare (s : Store) (notices : List Notice) :
    (step d cwd item ⟨.prepare, s, notices⟩).store = (ensureParent s cwd item.destination).2 := by
  rw [step_prepare]
  split <;> next h => rw [h]

theorem store_classify (s : Store) (notices : List Notice) :
    (step d cwd item ⟨.classify, s, notices⟩).store = s := by
  rw [step_classify]
  split <;> rfl

theorem store_copy (s : Store) (notices : List Notice) :
    (step d cwd item ⟨.copy, s, notices⟩).store = (copyVerbatim s cwd item.source item.destination).2 := by
  rw [step_copy]
  split <;> next h => rw [h]

theorem store_publish (data : Bytes) (s : Store) (notices : List Notice) :
    (step d cwd item ⟨.publish data, s, notices⟩).store =
      (LuaTree.publish s cwd item.destination data).2 := by
  rw [step_publish]
  split <;> next h => rw [h]

theorem step_of_done {st : ItemState} {result : Except Error Outcome} (h : st.stage = .done result) :
    step d cwd item st = st := by
  unfold step
  rw [h]

theorem steps_succ (n : Nat) (st : ItemState) :
    steps d cwd item (n + 1) st = step d cwd item (steps d cwd item n st) := by
  induction n generalizing st with
  | zero => rfl
  | succ n ih => exact ih (step d cwd item st)

/-- An item that is done stays as it is. -/
theorem steps_add_of_done {n : Nat} {st : ItemState} (h : (steps d cwd item n st).stage.rank = 4)
    (k : Nat) : steps d cwd item (n + k) st = steps d cwd item n st := by
  induction k with
  | zero => rfl
  | succ k ih =>
    obtain ⟨result, done⟩ := Stage.exists_done h
    rw [← Nat.add_assoc, steps_succ, ih]
    exact step_of_done done

theorem le_rank_steps (d : Decompiler) (cwd : Location) (item : WorkItem) (n : Nat) (st : ItemState) :
    (steps d cwd item n st).stage.rank = 4 ∨ n ≤ (steps d cwd item n st).stage.rank := by
  induction n with
  | zero => exact .inr (Nat.zero_le _)
  | succ n ih =>
    rw [steps_succ]
    rcases rank_step d cwd item (steps d cwd item n st) with h | h
    · exact .inl h
    · rcases ih with ih | ih
      · have := (step d cwd item (steps d cwd item n st)).stage.rank_le
        omega
      · exact .inr (by omega)

/-- After all its stages an item is done. -/
theorem rank_steps_stageCount (d : Decompiler) (cwd : Location) (item : WorkItem) (st : ItemState) :
    (steps d cwd item stageCount st).stage.rank = 4 := by
  rcases le_rank_steps d cwd item stageCount st with h | h
  · exact h
  · exact Nat.le_antisymm (Stage.rank_le _) h

end ItemState

/-! ## One item from its first stage to its last -/

section

variable {s t u : Store} {e : Error}

theorem ItemState.step_unprepared (prepared : ensureParent s cwd item.destination = (.error e, t)) :
    step d cwd item (.initial s) = ⟨.done (.error e), t, []⟩ := by
  rw [initial, step_prepare, prepared]

theorem convertItem_of_unprepared (prepared : ensureParent s cwd item.destination = (.error e, t)) :
    convertItem d cwd s item = ⟨⟨item, .error e⟩, t, []⟩ := by
  have last : ItemState.steps d cwd item ItemState.stageCount (.initial s) = ⟨.done (.error e), t, []⟩ := by
    show ItemState.steps d cwd item 3 (ItemState.step d cwd item (.initial s)) = _
    rw [ItemState.step_unprepared prepared]
    rfl
  rw [convertItem, last]
  rfl

variable (prepared : ensureParent s cwd item.destination = (.ok (), t))

include prepared

theorem ItemState.step_prepared : step d cwd item (.initial s) = ⟨.classify, t, []⟩ := by
  rw [initial, step_prepare, prepared]

/-- What is classified is what is there once the parent has been created. -/
theorem ItemState.steps_prepared (n : Nat) :
    steps d cwd item (n + 2) (.initial s) = steps d cwd item n (step d cwd item ⟨.classify, t, []⟩) := by
  show steps d cwd item n (step d cwd item (step d cwd item (.initial s))) = _
  rw [step_prepared prepared]

theorem convertItem_of_unclassified (classified : Chunk.isCompiled t cwd item.source = .error e) :
    convertItem d cwd s item = ⟨⟨item, .error e⟩, t, []⟩ := by
  rw [convertItem, ItemState.stageCount, ItemState.steps_prepared prepared, ItemState.step_classify,
    classified]
  rfl

/-- What is no compiled chunk is copied, and the decompiler is not asked. -/
theorem convertItem_of_copied (classified : Chunk.isCompiled t cwd item.source = .ok false)
    {r : Except Error Unit} (copied : copyVerbatim t cwd item.source item.destination = (r, u)) :
    convertItem d cwd s item = ⟨⟨item, r.map fun _ => .copied⟩, u, [.copying item.source]⟩ := by
  have third : ItemState.step d cwd item ⟨.copy, t, [.copying item.source]⟩ =
      ⟨.done (r.map fun _ => .copied), u, [.copying item.source]⟩ := by
    rw [ItemState.step_copy, copied]
    cases r <;> rfl
  have last : ItemState.steps d cwd item ItemState.stageCount (.initial s) =
      ⟨.done (r.map fun _ => .copied), u, [.copying item.source]⟩ := by
    rw [ItemState.stageCount, ItemState.steps_prepared prepared, ItemState.step_classify, classified]
    show ItemState.step d cwd item (ItemState.step d cwd item ⟨.copy, t, [.copying item.source]⟩) = _
    rw [third, ItemState.step_of_done rfl]
  rw [convertItem, last]
  rfl

/-- A compiled chunk is decompiled once, and what is printed is published after a run that succeeded. -/
theorem convertItem_of_compiled (classified : Chunk.isCompiled t cwd item.source = .ok true) :
    convertItem d cwd s item =
      match (d.decompile t item.source).result with
      | .error e => ⟨⟨item, .error e⟩, (d.decompile t item.source).store,
          .decompiling item.source :: (d.decompile t item.source).notices⟩
      | .ok output =>
        if output.success then
          ⟨⟨item, (publish (d.decompile t item.source).store cwd item.destination output.stdout).1.map
              fun _ => .converted⟩,
            (publish (d.decompile t item.source).store cwd item.destination output.stdout).2,
            .decompiling item.source :: (d.decompile t item.source).notices⟩
        else ⟨⟨item, .error (.decompilerFailed item.source output)⟩, (d.decompile t item.source).store,
          .decompiling item.source :: (d.decompile t item.source).notices⟩ := by
  have steps : ItemState.steps d cwd item ItemState.stageCount (.initial s) =
      ItemState.step d cwd item (ItemState.step d cwd item ⟨.decompile, t, [.decompiling item.source]⟩) := by
    rw [ItemState.stageCount, ItemState.steps_prepared prepared, ItemState.step_classify, classified]
    rfl
  rw [convertItem, steps, ItemState.step_decompile]
  cases (d.decompile t item.source).result with
  | error e => rfl
  | ok output =>
    dsimp only
    cases output.success with
    | false => rfl
    | true =>
      rw [if_pos rfl, if_pos rfl, ItemState.step_publish]
      cases publish (d.decompile t item.source).store cwd item.destination output.stdout with
      | mk r u => cases r <;> rfl

omit prepared in
/-- The decompiler has its turn in the third stage of an item whose source is a compiled chunk once the
parent has been created, and in no other. -/
theorem ItemState.stage_eq_decompile_iff {n : Nat} :
    (steps d cwd item n (.initial s)).stage = .decompile ↔ n = 2 ∧ ∃ t,
      ensureParent s cwd item.destination = (.ok (), t) ∧ Chunk.isCompiled t cwd item.source = .ok true := by
  constructor
  · intro h
    -- the rank of a stage grows with every step, and that of the third stage is two
    have early : n ≤ 2 := by
      rcases le_rank_steps d cwd item n (.initial s) with done | le
      · rw [h] at done
        cases done
      · rwa [h] at le
    cases prepared : ensureParent s cwd item.destination with
    | mk r t =>
      cases r with
      | error e =>
        cases n with
        | zero => cases h
        | succ n =>
          have first : steps d cwd item 1 (.initial s) = ⟨.done (.error e), t, []⟩ :=
            step_unprepared (d := d) prepared
          have done : (steps d cwd item 1 (.initial s)).stage.rank = 4 := by
            rw [first]
            rfl
          rw [Nat.add_comm, steps_add_of_done done, first] at h
          cases h
      | ok _ =>
        obtain rfl | rfl | rfl : n = 0 ∨ n = 1 ∨ n = 2 := by omega
        · cases h
        · have second : (step d cwd item (.initial s)).stage = .decompile := h
          rw [step_prepared prepared] at second
          cases second
        · refine ⟨rfl, t, rfl, ?_⟩
          rw [steps_prepared prepared 0, step_classify] at h
          cases classified : Chunk.isCompiled t cwd item.source with
          | error e =>
            rw [classified] at h
            cases h
          | ok compiled =>
            rw [classified] at h
            cases compiled with
            | false => cases h
            | true => rfl
  · rintro ⟨rfl, t, prepared, classified⟩
    rw [steps_prepared prepared 0, step_classify, classified]
    rfl

end

/-! ## A batch -/

namespace BatchState

variable {b : BatchState} {s : Store} {items : List WorkItem}

theorem run_append (schedule rest : List Nat) :
    b.run d cwd (schedule ++ rest) = (b.run d cwd schedule).run d cwd rest :=
  List.foldl_append

theorem step_of_none {k : Nat} (h : b.jobs[k]? = none) : b.step d cwd k = b := by
  rw [step, h]

theorem step_of_some {k : Nat} {stage : Stage} (h : b.jobs[k]? = some (item, stage)) :
    b.step d cwd k = ⟨b.jobs.set k (item, (ItemState.step d cwd item ⟨stage, b.store, []⟩).stage),
      (ItemState.step d cwd item ⟨stage, b.store, []⟩).store⟩ := by
  rw [step, h]

/-- The items stay, in their order. -/
theorem items_step (k : Nat) : (b.step d cwd k).jobs.map Prod.fst = b.jobs.map Prod.fst := by
  cases h : b.jobs[k]? with
  | none => rw [step_of_none h]
  | some job =>
    obtain ⟨item, stage⟩ := job
    rw [step_of_some h, List.map_set]
    have there : (b.jobs.map Prod.fst)[k]? = some item := by
      rw [List.getElem?_map, h]
      rfl
    obtain ⟨hk, he⟩ := List.getElem?_eq_some_iff.1 there
    rw [← he]
    exact List.set_getElem_self hk

theorem items_run (schedule : List Nat) :
    (b.run d cwd schedule).jobs.map Prod.fst = b.jobs.map Prod.fst := by
  induction schedule generalizing b with
  | nil => rfl
  | cons k schedule ih => exact (ih (b := b.step d cwd k)).trans (items_step k)

theorem items_initial (s : Store) (items : List WorkItem) :
    (initial s items).jobs.map Prod.fst = items := by
  rw [initial, List.map_map]
  exact List.map_id items

/-- The turn of one item leaves the others where they are. -/
theorem getElem?_step_of_ne {k j : Nat} (h : j ≠ k) : (b.step d cwd k).jobs[j]? = b.jobs[j]? := by
  cases hk : b.jobs[k]? with
  | none => rw [step_of_none hk]
  | some job =>
    rw [step_of_some hk]
    exact List.getElem?_set_ne h.symm

theorem getElem?_step_self {k : Nat} {stage : Stage} (h : b.jobs[k]? = some (item, stage)) :
    (b.step d cwd k).jobs[k]? =
      some (item, (ItemState.step d cwd item ⟨stage, b.store, []⟩).stage) := by
  rw [step_of_some h]
  exact List.getElem?_set_self (List.getElem?_eq_some_iff.1 h).1

/-- A batch of one item is as far as the number of its turns. -/
theorem exists_run_singleton (d : Decompiler) (cwd : Location) (item : WorkItem) (stage : Stage)
    (s : Store) (schedule : List Nat) :
    ∃ n, run d cwd ⟨[(item, stage)], s⟩ schedule =
      ⟨[(item, (ItemState.steps d cwd item n ⟨stage, s, []⟩).stage)],
        (ItemState.steps d cwd item n ⟨stage, s, []⟩).store⟩ := by
  induction schedule generalizing stage s with
  | nil => exact ⟨0, rfl⟩
  | cons k schedule ih =>
    cases k with
    | zero =>
      obtain ⟨n, hn⟩ := ih (ItemState.step d cwd item ⟨stage, s, []⟩).stage
        (ItemState.step d cwd item ⟨stage, s, []⟩).store
      refine ⟨n + 1, hn.trans ?_⟩
      have same : ItemState.Alike ⟨(ItemState.step d cwd item ⟨stage, s, []⟩).stage,
          (ItemState.step d cwd item ⟨stage, s, []⟩).store, []⟩
          (ItemState.step d cwd item ⟨stage, s, []⟩) := ⟨rfl, rfl⟩
      obtain ⟨hs, ht⟩ := same.steps cwd (fun _ => ⟨rfl, rfl⟩) n
      rw [hs, ht]
      rfl
    | succ k => exact ih stage s

/-- All runs of one item that come to an end are the same. -/
theorem run_singleton_unique {schedule schedule' : List Nat}
    (h : ((initial s [item]).run d cwd schedule).isDone)
    (h' : ((initial s [item]).run d cwd schedule').isDone) :
    (initial s [item]).run d cwd schedule = (initial s [item]).run d cwd schedule' := by
  have same : ∀ {schedule}, ((initial s [item]).run d cwd schedule).isDone →
      (initial s [item]).run d cwd schedule =
        ⟨[(item, (ItemState.steps d cwd item ItemState.stageCount (.initial s)).stage)],
          (ItemState.steps d cwd item ItemState.stageCount (.initial s)).store⟩ := by
    intro schedule h
    obtain ⟨n, hn⟩ := exists_run_singleton d cwd item .prepare s schedule
    have hn : (initial s [item]).run d cwd schedule = _ := hn
    rw [hn] at h ⊢
    have done := (Stage.isSome_result? _).1 (List.all_eq_true.1 h _ List.mem_cons_self)
    have done' := ItemState.rank_steps_stageCount d cwd item (.initial s)
    have more := ItemState.steps_add_of_done done ItemState.stageCount
    rw [Nat.add_comm] at more
    rw [← more]
    show BatchState.mk _ _ = _
    rw [← ItemState.steps_add_of_done done' n]
    rfl
  rw [same h, same h']

/-! ## What the decompiler was asked -/

/-- With each of its turns an item gets on, until it is done. -/
theorem rank_run (d : Decompiler) (cwd : Location) {k : Nat} {stage : Stage}
    (h : b.jobs[k]? = some (item, stage)) (schedule : List Nat) :
    ∃ later, (b.run d cwd schedule).jobs[k]? = some (item, later) ∧
      (later.rank = 4 ∨ stage.rank + schedule.count k ≤ later.rank) := by
  induction schedule generalizing b stage with
  | nil => exact ⟨stage, h, .inr (Nat.le_refl _)⟩
  | cons j schedule ih =>
    by_cases hj : k = j
    · subst hj
      obtain ⟨later, hl, hr⟩ := ih (getElem?_step_self h)
      have most := later.rank_le
      rw [List.count_cons_self]
      refine ⟨later, hl, ?_⟩
      rcases ItemState.rank_step d cwd item ⟨stage, b.store, []⟩ with h4 | hlt
      · omega
      · dsimp only at hlt
        omega
    · rw [List.count_cons_of_ne (Ne.symm hj)]
      exact ih (b := b.step d cwd j) ((getElem?_step_of_ne hj).trans h)

/-- A batch is done when every item has had its turns. -/
theorem isDone_of_count {schedule : List Nat}
    (h : ∀ k < items.length, ItemState.stageCount ≤ schedule.count k) :
    ((initial s items).run d cwd schedule).isDone := by
  rw [isDone, List.all_eq_true]
  rintro ⟨first, stage⟩ hjob
  obtain ⟨k, hk⟩ := List.mem_iff_getElem?.1 hjob
  have there : ((initial s items).run d cwd schedule).jobs.map Prod.fst = items := by
    rw [items_run, items_initial]
  have item : items[k]? = some first := by
    rw [← there, List.getElem?_map, hk]
    rfl
  have begun : (initial s items).jobs[k]? = some (first, .prepare) := by
    rw [initial, List.getElem?_map, item]
    rfl
  obtain ⟨later, hl, hr⟩ := rank_run d cwd begun schedule
  cases hk.symm.trans hl
  have turns := h k (List.getElem?_eq_some_iff.1 item).1
  have most := stage.rank_le
  refine (Stage.isSome_result? stage).2 ?_
  rw [ItemState.stageCount] at turns
  omega

/-- An item whose source was decompiled is not at that stage again. -/
theorem ne_decompile_of_run {k : Nat} (h : b.jobs[k]? = some (item, .decompile)) (schedule : List Nat)
    (item' : WorkItem) : (b.run d cwd (k :: schedule)).jobs[k]? ≠ some (item', .decompile) := by
  intro again
  have turn : (b.step d cwd k).jobs[k]? = some (item, _) := getElem?_step_self h
  obtain ⟨later, hl, hr⟩ := rank_run d cwd turn schedule
  cases hl.symm.trans again
  have two : Stage.rank .decompile = 2 := rfl
  have next := ItemState.rank_step d cwd item ⟨.decompile, b.store, []⟩
  dsimp only at next
  omega

/-- For an item the decompiler gives one answer at most. -/
theorem Answered.unique {schedule : List Nat} {k : Nat} {answer answer' : Except Error ProcessOutput}
    (h : Answered d cwd b schedule k answer) (h' : Answered d cwd b schedule k answer') :
    answer = answer' := by
  obtain ⟨before, after, item, hs, hk, rfl⟩ := h
  obtain ⟨before', after', item', hs', hk', rfl⟩ := h'
  rcases List.append_eq_append_iff.1 (hs.symm.trans hs') with ⟨more, he, ha⟩ | ⟨more, he, ha⟩
  · cases more with
    | nil =>
      rw [List.append_nil] at he
      subst he
      cases hk.symm.trans hk'
      rfl
    | cons j more =>
      obtain ⟨rfl, _⟩ := List.cons.inj ha
      rw [he, run_append] at hk'
      exact absurd hk' (ne_decompile_of_run hk more item')
  · cases more with
    | nil =>
      rw [List.append_nil] at he
      subst he
      cases hk.symm.trans hk'
      rfl
    | cons j more =>
      obtain ⟨rfl, _⟩ := List.cons.inj ha
      rw [he, run_append] at hk
      exact absurd hk (ne_decompile_of_run hk' more item)

/-! ## One item after the other -/

/-- Several turns of one item in a row are several of its stages. -/
theorem run_replicate (d : Decompiler) (cwd : Location) {k : Nat} {stage : Stage}
    (h : b.jobs[k]? = some (item, stage)) (n : Nat) :
    b.run d cwd (List.replicate n k) =
      ⟨b.jobs.set k (item, (ItemState.steps d cwd item n ⟨stage, b.store, []⟩).stage),
        (ItemState.steps d cwd item n ⟨stage, b.store, []⟩).store⟩ := by
  induction n generalizing b stage with
  | zero =>
    obtain ⟨hk, he⟩ := List.getElem?_eq_some_iff.1 h
    rw [List.replicate_zero]
    show b = ⟨b.jobs.set k (item, stage), b.store⟩
    rw [← he, List.set_getElem_self]
  | succ n ih =>
    rw [List.replicate_succ]
    show (b.step d cwd k).run d cwd (List.replicate n k) = _
    rw [ih (getElem?_step_self h), step_of_some h]
    dsimp only
    rw [List.set_set]
    have same : ItemState.Alike ⟨(ItemState.step d cwd item ⟨stage, b.store, []⟩).stage,
        (ItemState.step d cwd item ⟨stage, b.store, []⟩).store, []⟩
        (ItemState.step d cwd item ⟨stage, b.store, []⟩) := ⟨rfl, rfl⟩
    obtain ⟨hs, ht⟩ := same.steps cwd (fun _ => ⟨rfl, rfl⟩) n
    rw [hs, ht]
    rfl

/-- All the turns of one item in a row convert it. -/
theorem run_turns (d : Decompiler) (cwd : Location) (front rest : List (WorkItem × Stage))
    (item : WorkItem) (s : Store) :
    run d cwd ⟨front ++ (item, .prepare) :: rest, s⟩
        (List.replicate ItemState.stageCount front.length) =
      ⟨(front ++ [(item, (ItemState.steps d cwd item ItemState.stageCount (.initial s)).stage)]) ++ rest,
        (convertItem d cwd s item).store⟩ := by
  have here : (front ++ (item, Stage.prepare) :: rest)[front.length]? = some (item, .prepare) := by
    rw [List.getElem?_append_right (Nat.le_refl _), Nat.sub_self]
    rfl
  have turn := run_replicate d cwd (b := ⟨front ++ (item, .prepare) :: rest, s⟩) here ItemState.stageCount
  rw [turn, List.set_append_right _ _ (Nat.le_refl _), Nat.sub_self, List.set_cons_zero,
    List.append_assoc]
  rfl

/-- Behind items that are done, the others are converted one after the other. -/
theorem run_sequential_from (d : Decompiler) (cwd : Location) (front : List (WorkItem × Stage))
    (s : Store) (items : List WorkItem) :
    let b : BatchState := ⟨front ++ items.map fun item => (item, .prepare), s⟩
    ∃ back : List (WorkItem × Stage),
      b.run d cwd ((List.range' front.length items.length).flatMap
        (List.replicate ItemState.stageCount)) = ⟨front ++ back, (convertItems d cwd s items).2⟩ ∧
      back.map (fun job => (⟨job.1, job.2.result?.getD (.ok .copied)⟩ : ItemReport)) =
        (convertItems d cwd s items).1.map (·.report) ∧
      ∀ job ∈ back, job.2.rank = 4 := by
  induction items generalizing front s with
  | nil => exact ⟨[], rfl, rfl, fun _ h => absurd h List.not_mem_nil⟩
  | cons item items ih =>
    intro b
    have turns := run_turns d cwd front (items.map fun item => (item, .prepare)) item s
    obtain ⟨back, hr, hreport, hdone⟩ := ih
      (front ++ [(item, (ItemState.steps d cwd item ItemState.stageCount (.initial s)).stage)])
      (convertItem d cwd s item).store
    refine ⟨(item, (ItemState.steps d cwd item ItemState.stageCount (.initial s)).stage) :: back,
      ?_, ?_, ?_⟩
    · rw [List.length_cons, List.range'_succ, List.flatMap_cons, run_append]
      rw [List.length_append, List.length_singleton] at hr
      show BatchState.run d cwd (run d cwd ⟨front ++ (item, .prepare) :: _, s⟩ _) _ = _
      rw [turns, hr, List.append_assoc]
      rfl
    · rw [List.map_cons, hreport]
      rfl
    · intro job hjob
      rcases List.mem_cons.1 hjob with rfl | hjob
      · exact ItemState.rank_steps_stageCount _ _ _ _
      · exact hdone job hjob

/-- Converting a batch is one of its runs, whatever the number of jobs, and every item is done then. -/
theorem run_sequential (d : Decompiler) (cwd : Location) (jobs : Nat) (s : Store) (items : List WorkItem) :
    ((initial s items).run d cwd (sequential items.length)).store =
        (convertBatch d cwd jobs s items).store ∧
      ((initial s items).run d cwd (sequential items.length)).report =
        (convertBatch d cwd jobs s items).report ∧
      ((initial s items).run d cwd (sequential items.length)).isDone := by
  obtain ⟨back, hr, hreport, hdone⟩ := run_sequential_from d cwd [] s items
  have run : (initial s items).run d cwd (sequential items.length) =
      ⟨back, (convertItems d cwd s items).2⟩ := by
    rw [sequential, List.range_eq_range']
    exact hr
  rw [run]
  refine ⟨rfl, congrArg BatchReport.mk hreport, ?_⟩
  rw [isDone, List.all_eq_true]
  exact fun job hjob => (Stage.isSome_result? job.2).2 (hdone job hjob)

end BatchState

/-! ## How a conversion ends -/

/-- What converting items may come to: under a schedule that brings every item to its end, or with a
number of jobs. -/
inductive Ends (d : Decompiler) (cwd : Location) (s : Store) (items : List WorkItem) :
    Store → BatchReport → Prop
  | schedule {schedule : List Nat}
      (done : ((BatchState.initial s items).run d cwd schedule).isDone) :
      Ends d cwd s items ((BatchState.initial s items).run d cwd schedule).store
        ((BatchState.initial s items).run d cwd schedule).report
  | jobs (jobs : Nat) : Ends d cwd s items (convertBatch d cwd jobs s items).store
      (convertBatch d cwd jobs s items).report

variable {s t : Store} {items : List WorkItem} {report : BatchReport}

/-- Every end is that of a schedule. -/
theorem Ends.exists_run (h : Ends d cwd s items t report) : ∃ schedule,
    ((BatchState.initial s items).run d cwd schedule).isDone ∧
      ((BatchState.initial s items).run d cwd schedule).store = t ∧
      ((BatchState.initial s items).run d cwd schedule).report = report := by
  cases h with
  | @schedule schedule done => exact ⟨schedule, done, rfl, rfl⟩
  | jobs jobs =>
    obtain ⟨store, report, done⟩ := BatchState.run_sequential d cwd jobs s items
    exact ⟨_, done, store, report⟩

/-- A batch of one item ends as that item does. -/
theorem Ends.of_singleton (h : Ends d cwd s [item] t report) :
    t = (convertItem d cwd s item).store ∧ report = ⟨[(convertItem d cwd s item).report]⟩ := by
  obtain ⟨schedule, done, rfl, rfl⟩ := h.exists_run
  obtain ⟨store, report, done'⟩ := BatchState.run_sequential d cwd 1 s [item]
  rw [BatchState.run_singleton_unique done done', store, report]
  exact ⟨rfl, rfl⟩

end LuaTree

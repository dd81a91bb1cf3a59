import LuaTree.Proofs.Convert.Forecast
import LuaTree.Proofs.Convert.Unharmed
import LuaTree.Proofs.Plan.Layout
import LuaTree.Proofs.Plan.Tree
import Mathlib.Data.List.Nodup

/-!
# The tasks of a directory

For an input directory without links in it, the items of a plan are tasks of one scene
(`scene_of_outlet`): no destination is on the way to another one, since no file of the input is on the
way to another file, and sources are read where nothing is written. Two runs of the same scene that end
well end the same way (`Course.unique`).

Whatever the decompiler answers in the course of a schedule, the batch keeps the course that these
answers make (`course_of_answered`); and where the answer matters, it was asked (`exists_answered`).
-/

namespace LuaTree

open PathText Store

variable {s : Store} {cwd top dir : Location} {input output : PathText} {cs : List Component} {m : Name}
  {mode : Nat}

/-- The task that a route stands for, `m` being the name of the output directory. -/
def taskAt (input : PathText) (m : Name) (ns : List Name) : Task :=
  ⟨joinAll input ns, m :: ns.dropLast, ns.getLast?.getD []⟩

theorem taskAt_way {ns : List Name} (hne : ns ≠ []) :
    (taskAt input m ns).way ++ [(taskAt input m ns).name] = m :: ns := by
  obtain ⟨front, n, rfl⟩ := (List.eq_nil_or_concat' ns).resolve_left hne
  rw [taskAt, List.dropLast_concat, List.getLast?_concat]
  rfl

theorem taskAt_tail {ns : List Name} (hne : ns ≠ []) :
    (taskAt input m ns).way.tail ++ [(taskAt input m ns).name] = ns := by
  have way_ne : (taskAt input m ns).way ≠ [] := List.cons_ne_nil _ _
  have whole : (taskAt input m ns).way ++ [(taskAt input m ns).name] = m :: ns := taskAt_way hne
  rw [← List.tail_append_of_ne_nil way_ne, whole, List.tail_cons]

theorem taskAt_place {ns : List Name} (hne : ns ≠ []) :
    (taskAt input m ns).place dir = dir ++ m :: ns := by
  rw [Task.place, List.append_assoc, taskAt_way hne]

theorem taskAt_path {ns : List Name} (hne : ns ≠ []) :
    (taskAt input m ns).path cs = below cs (m :: ns) := by
  rw [Task.path, taskAt_way hne]

theorem taskAt_item (outlet : Outlet s cwd top output cs dir m) {ns : List Name} (hne : ns ≠ []) :
    (taskAt input m ns).item cs = Plan.itemAt input output ns := by
  rw [Task.item, taskAt_path hne, Plan.itemAt, joinAll_outlet outlet]
  rfl

/-- The items that routes stand for are those of their tasks. -/
theorem items_of_routes (outlet : Outlet s cwd top output cs dir m) {routes : List (List Name)}
    (hne : ∀ ns ∈ routes, ns ≠ []) : routes.map (Plan.itemAt input output) =
      (routes.map (taskAt input m)).map fun t => t.item cs := by
  rw [List.map_map]
  exact List.map_congr_left fun ns hns => (taskAt_item outlet (hne ns hns)).symm

/-- The source of a route in a directory without links is where its names lead to, unless its path is
none that can be looked up. -/
theorem source_of_route (wellNamed : s.WellNamed) (h : s.stat? cwd input = .ok (top, .dir mode))
    (there : s.entry? top = some (.dir mode)) (links : Walk.Unlinked s top) {ns : List Name}
    (route : Walk.Route s cwd input output ns) :
    (∃ cause, checkText (joinAll input ns) = .error cause) ∨
      ∃ i, s.stat? cwd (joinAll input ns) = .ok (top ++ ns, .file i) := by
  have nul : ∀ n ∈ ns, '\x00' ∉ n := fun n hn => (route.lawful wellNamed n hn).no_nul
  rcases route.file with hf | ⟨hl, _⟩
  · obtain ⟨loc, i, hs⟩ := isFile_iff.1 hf
    obtain ⟨rfl, _⟩ := Walk.stat?_joinAll h there links route.names nul hs
    exact .inr ⟨i, hs⟩
  · have approach := Approach.of_stat? h (holdsDir_of_entry there) route.names nul route.ne_nil
    refine .inl ⟨.os .nameTooLong, ?_⟩
    rw [checkText_eq approach.no_nul (approach.ne_nil route.ne_nil), if_pos hl]

/-- The items of a plan for a directory without links are the tasks of a scene, if links and files with
several names are not in the way, and no source is where something is written. -/
theorem scene_of_outlet (sound : s.Sound cwd) (h : s.stat? cwd input = .ok (top, .dir mode))
    (there : s.entry? top = some (.dir mode)) (links : Walk.Unlinked s top)
    (outlet : Outlet s cwd top output cs dir m)
    {routes : List (List Name)} (mem : ∀ ns ∈ routes, Walk.Route s cwd input output ns)
    (distinct : routes.Nodup)
    (plain : ∀ ns e, s.entry? (dir ++ m :: ns) = some e → e.isDir ∨
      ∃ i, e = .file i ∧ ∀ l, s.entry? l = some (.file i) → l = dir ++ m :: ns)
    (elsewhere : ∀ ns ∈ routes, ∀ ks ∈ routes, (taskAt input m ks).blockage s cs dir = none →
      top ++ ns ≠ dir ++ m :: ks) :
    Scene s cwd cs dir (routes.map (taskAt input m)) := by
  have each : ∀ {t}, t ∈ routes.map (taskAt input m) →
      ∃ ns ∈ routes, ns ≠ [] ∧ t = taskAt input m ns := by
    intro t ht
    obtain ⟨ns, hns, rfl⟩ := List.mem_map.1 ht
    exact ⟨ns, hns, (mem ns hns).ne_nil, rfl⟩
  have lawful : ∀ ns ∈ routes, ∀ n ∈ ns, Lawful n := fun ns hns => (mem ns hns).lawful sound.wellNamed
  refine ⟨sound, outlet.base, fun ht n hn => ?_, fun ht n hn => ?_, fun ht n hn => ?_, fun ht => ?_,
    fun ht front hp hne e he => ?_, fun {j k t u} ht hu hp => ?_, fun ht => ?_⟩
  · obtain ⟨ns, hns, hne, rfl⟩ := each ht
    rw [taskAt_way hne] at hn
    rcases List.mem_cons.1 hn with rfl | hn
    · exact outlet.name
    · exact (lawful ns hns n hn).toIsName
  · obtain ⟨ns, hns, hne, rfl⟩ := each ht
    rw [taskAt_way hne] at hn
    rcases List.mem_cons.1 hn with rfl | hn
    · exact outlet.name_no_nul
    · exact (lawful ns hns n hn).no_nul
  · obtain ⟨ns, hns, hne, rfl⟩ := each ht
    rw [taskAt_tail hne] at hn
    exact (lawful ns hns n hn).short
  · obtain ⟨ns, _, _, rfl⟩ := each ht
    exact List.cons_ne_nil _ _
  · obtain ⟨ns, hns, hne', rfl⟩ := each ht
    rw [taskAt_way hne'] at hp
    obtain ⟨front, rfl, _⟩ := (List.prefix_cons_iff.1 hp).resolve_left hne
    exact plain front e he
  · -- a file is never on the way to another one
    rw [List.getElem?_map] at ht hu
    obtain ⟨ns, hns, rfl⟩ := Option.map_eq_some_iff.1 ht
    obtain ⟨ks, hks, rfl⟩ := Option.map_eq_some_iff.1 hu
    have route := mem ns (List.mem_of_getElem? hns)
    have route' := mem ks (List.mem_of_getElem? hks)
    rw [taskAt_way route.ne_nil, taskAt_way route'.ne_nil, List.cons_prefix_cons] at hp
    obtain rfl := route.eq_of_isPrefix route' hp.2
    obtain ⟨hj, he⟩ := List.getElem?_eq_some_iff.1 hns
    obtain ⟨hk, he'⟩ := List.getElem?_eq_some_iff.1 hks
    exact (List.Nodup.getElem_inj_iff distinct).1 (he.trans he'.symm)
  · obtain ⟨ns, hns, _, rfl⟩ := each ht
    refine (source_of_route sound.wellNamed h there links (mem ns hns)).imp_right fun ⟨i, hs⟩ => ?_
    refine ⟨_, i, hs, fun u hu hb => ?_⟩
    obtain ⟨ks, hks, hne, rfl⟩ := each hu
    rw [taskAt_place hne]
    exact elsewhere ns hns ks hks hb

/-! ## The end of a run -/

variable {a : Location} {tasks : List Task} {answers answers' : Nat → Except Error ProcessOutput}
  {b b' : BatchState} {loc : Location} {file : Inode} {d : Decompiler}

/-- At the end every item has become what was forecast. -/
theorem Course.job_of_isDone (h : Course s cwd cs a tasks answers b) (done : b.isDone) {k : Nat} {t : Task}
    (ht : tasks[k]? = some t) :
    b.jobs[k]? = some (t.item cs, .done (t.forecast s cwd cs a (answers k))) := by
  have hi := congrArg (·[k]?) h.items
  simp only [List.getElem?_map, ht, Option.map_some] at hi
  obtain ⟨⟨item, stage⟩, hk, rfl⟩ := Option.map_eq_some_iff.1 hi
  have finished := List.all_eq_true.1 done _ (List.mem_of_getElem? hk)
  have due := h.due ht hk
  cases stage with
  | done result =>
    obtain rfl : result = _ := due
    exact hk
  | prepare | classify | copy | decompile | publish _ => cases finished

theorem Course.job_of_none (h : Course s cwd cs a tasks answers b) {k : Nat} (ht : tasks[k]? = none) :
    b.jobs[k]? = none := by
  have hi := congrArg (·[k]?) h.items
  simp only [List.getElem?_map, ht, Option.map_none] at hi
  exact Option.map_eq_none_iff.1 hi

/-- The report tells the same. -/
theorem Course.report_of_isDone (h : Course s cwd cs a tasks answers b) (done : b.isDone) {k : Nat}
    {t : Task} (ht : tasks[k]? = some t) :
    b.report.items[k]? = some ⟨t.item cs, t.forecast s cwd cs a (answers k)⟩ := by
  rw [BatchState.report]
  dsimp only
  rw [List.getElem?_map, h.job_of_isDone done ht]
  rfl

/-- At the end the directories of all items that nothing blocks have been made. -/
theorem Course.made_iff (h : Course s cwd cs a tasks answers b) (done : b.isDone) :
    Made s cs a tasks b.jobs loc ↔ ∃ t ∈ tasks, t.blockage s cs a = none ∧
      ∃ front, front <+: t.way ∧ front ≠ [] ∧ loc = a ++ front := by
  constructor
  · rintro ⟨k, t, stage, ht, _, ⟨_, hb⟩, hl⟩
    exact ⟨t, List.mem_of_getElem? ht, hb, hl⟩
  · rintro ⟨t, ht, hb, hl⟩
    obtain ⟨k, hk⟩ := List.mem_iff_getElem?.1 ht
    exact ⟨k, t, _, hk, h.job_of_isDone done hk, ⟨by simp [Stage.rank], hb⟩, hl⟩

/-- At the end those files are finished that are forecast to be. -/
theorem Course.finished_iff (h : Course s cwd cs a tasks answers b) (done : b.isDone) :
    Finished s cwd cs a tasks answers b.jobs loc file ↔
      ∃ (k : Nat) (t : Task) (outcome : Outcome), tasks[k]? = some t ∧
        t.forecast s cwd cs a (answers k) = .ok outcome ∧ loc = t.place a ∧
        file = t.content s cwd (answers k) outcome := by
  constructor
  · rintro ⟨k, t, stage, ht, hk, outcome, rfl, hl, hf⟩
    have ends := (h.job_of_isDone done ht).symm.trans hk
    rw [Option.some.injEq, Prod.mk.injEq, Stage.done.injEq] at ends
    exact ⟨k, t, outcome, ht, ends.2, hl, hf⟩
  · rintro ⟨k, t, outcome, ht, hf, hl, hc⟩
    exact ⟨k, t, _, ht, h.job_of_isDone done ht, outcome, by rw [hf], hl, hc⟩

/-- What becomes of an item depends on no answer but its own. -/
theorem Course.job_eq (h : Course s cwd cs a tasks answers b) (done : b.isDone)
    (h' : Course s cwd cs a tasks answers' b') (done' : b'.isDone) {k : Nat}
    (same : answers k = answers' k) : b.jobs[k]? = b'.jobs[k]? := by
  cases ht : tasks[k]? with
  | some t => rw [h.job_of_isDone done ht, h'.job_of_isDone done' ht, same]
  | none => rw [h.job_of_none ht, h'.job_of_none ht]

/-- With other answers the end is another one at the destinations of those items only that can finish. -/
theorem Course.view_eq (h : Course s cwd cs a tasks answers b) (done : b.isDone)
    (h' : Course s cwd cs a tasks answers' b') (done' : b'.isDone)
    (apart : ∀ k t answer outcome, tasks[k]? = some t → answers k ≠ answers' k →
      t.forecast s cwd cs a answer = .ok outcome → loc ≠ t.place a) :
    b.store.view loc = b'.store.view loc := by
  refine h.overlay.view_eq h'.overlay ((h.made_iff done).trans (h'.made_iff done').symm) fun f => ?_
  rw [h.finished_iff done, h'.finished_iff done']
  have same : ∀ {k t answer outcome}, tasks[k]? = some t → t.forecast s cwd cs a answer = .ok outcome →
      loc = t.place a → answers k = answers' k := by
    intro k t answer outcome ht hf hl
    by_contra hne
    exact apart k t answer outcome ht hne hf hl
  constructor
  · rintro ⟨k, t, outcome, ht, hf, hl, hc⟩
    have heq := same ht hf hl
    exact ⟨k, t, outcome, ht, heq ▸ hf, hl, heq ▸ hc⟩
  · rintro ⟨k, t, outcome, ht, hf, hl, hc⟩
    have heq := same ht hf hl
    exact ⟨k, t, outcome, ht, heq.symm ▸ hf, hl, heq.symm ▸ hc⟩

/-- Runs that end well end the same way. -/
theorem Course.unique (h : Course s cwd cs a tasks answers b) (done : b.isDone)
    (h' : Course s cwd cs a tasks answers b') (done' : b'.isDone) :
    Same b.store b'.store ∧ b.report = b'.report := by
  refine ⟨fun loc => h.view_eq done h' done' fun _ _ _ _ _ hne => absurd rfl hne, ?_⟩
  have jobs : b.jobs = b'.jobs := List.ext_getElem? fun k => h.job_eq done h' done' rfl
  rw [BatchState.report, BatchState.report, jobs]

/-! ## What a destination designates -/

theorem Task.short_of_forecast {t : Task} {answer : Except Error ProcessOutput} {outcome : Outcome}
    (h : t.forecast s cwd cs a answer = .ok outcome) : Utf8.byteLength (t.path cs) < pathLimit := by
  by_contra hl
  rw [Nat.not_lt] at hl
  have copy : s.copyFault (t.place a) (t.path cs) ≠ none := by
    rw [copyFault, if_pos hl]
    exact Option.some_ne_none _
  have publish : s.publishFault cwd (t.place a) (t.path cs) ≠ none := by
    intro hf
    exact Nat.not_lt.2 hl (publishFault_eq_none.1 hf).2.1
  unfold Task.forecast at h
  split at h
  · cases h
  · split at h
    · cases h
    · split at h
      · cases h
      · next hf => exact copy hf
    · split at h
      · cases h
      · split at h
        · split at h
          · cases h
          · next hf => exact publish hf
        · cases h

/-- Once its directories are there, the path of a destination designates where it is. -/
theorem Course.designates (scene : Scene s cwd cs a tasks) (h : Course s cwd cs a tasks answers b)
    {k : Nat} {t : Task} {stage : Stage} (ht : tasks[k]? = some t)
    (hk : b.jobs[k]? = some (t.item cs, stage)) (hr : stage.rank ≠ 0) (hb : t.blockage s cs a = none)
    (hl : Utf8.byteLength (t.path cs) < pathLimit) :
    Designates b.store cwd (t.path cs) (t.place a) := by
  have free : LinkFree b.store a t.way := by
    intro front hp hne target he
    have dir := h.overlay.there ⟨k, t, stage, ht, hk, ⟨hr, hb⟩, front, hp, hne, rfl⟩
    rw [holdsDir, he] at dir
    cases dir
  exact ((h.approach scene ht).designates_iff free).2 ⟨hl, h.hindrance_eq_none scene ht hk hr hb,
    (scene.lawful_name (List.mem_of_getElem? ht)).short, rfl⟩

/-! ## What the decompiler was asked -/

/-- There are answers that agree with those the decompiler gave. -/
theorem exists_answers (d : Decompiler) (cwd : Location) (b : BatchState) (schedule : List Nat) :
    ∃ answers : Nat → Except Error ProcessOutput, ∀ k answer,
      BatchState.Answered d cwd b schedule k answer → answers k = answer := by
  have each : ∀ k, ∃ a, ∀ answer, BatchState.Answered d cwd b schedule k answer → a = answer := by
    intro k
    by_cases h : ∃ answer, BatchState.Answered d cwd b schedule k answer
    · obtain ⟨answer, h⟩ := h
      exact ⟨answer, fun _ h' => h.unique h'⟩
    · exact ⟨.error default, fun answer h' => absurd ⟨answer, h'⟩ h⟩
  choose answers told using each
  exact ⟨answers, told⟩

/-- A batch keeps the course that the answers of the decompiler make. -/
theorem course_of_answered (scene : Scene s cwd cs a tasks) (quiet : d.Quiet) {schedule : List Nat}
    (told : ∀ k answer, BatchState.Answered d cwd (.initial s (tasks.map fun t => t.item cs))
      schedule k answer → answers k = answer) :
    Course s cwd cs a tasks answers
      ((BatchState.initial s (tasks.map fun t => t.item cs)).run d cwd schedule) :=
  Course.run scene quiet schedule (.initial scene) fun before k after t hs _ hk _ =>
    (told k _ ⟨before, after, t.item cs, hs, hk, rfl⟩).symm

/-- Where it depends on the answer what becomes of an item, the decompiler was asked. -/
theorem exists_answered (scene : Scene s cwd cs a tasks) (quiet : d.Quiet) {schedule : List Nat}
    (done : ((BatchState.initial s (tasks.map fun t => t.item cs)).run d cwd schedule).isDone)
    {k : Nat} {t : Task} (ht : tasks[k]? = some t) {x y : Except Error ProcessOutput}
    (hne : t.forecast s cwd cs a x ≠ t.forecast s cwd cs a y) :
    ∃ answer, BatchState.Answered d cwd (.initial s (tasks.map fun t => t.item cs)) schedule k
      answer := by
  by_contra unasked
  obtain ⟨answers, told⟩ :=
    exists_answers d cwd (.initial s (tasks.map fun t => t.item cs)) schedule
  -- otherwise the batch would keep the course for either answer
  have course : ∀ z, Course s cwd cs a tasks (Function.update answers k z)
      ((BatchState.initial s (tasks.map fun t => t.item cs)).run d cwd schedule) := by
    intro z
    refine course_of_answered scene quiet fun j answer h => ?_
    by_cases hj : j = k
    · subst hj
      exact absurd ⟨answer, h⟩ unasked
    · rw [Function.update_of_ne hj]
      exact told j answer h
  have ends : ∀ z,
      ((BatchState.initial s (tasks.map fun t => t.item cs)).run d cwd schedule).jobs[k]? =
        some (t.item cs, .done (t.forecast s cwd cs a z)) := by
    intro z
    have job := (course z).job_of_isDone done ht
    rwa [Function.update_self] at job
  have same := (ends x).symm.trans (ends y)
  rw [Option.some.injEq, Prod.mk.injEq, Stage.done.injEq] at same
  exact hne same.2

end LuaTree

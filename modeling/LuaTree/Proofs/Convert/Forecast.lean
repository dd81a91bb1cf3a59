import LuaTree.Proofs.Convert.Destination
import LuaTree.Proofs.Convert.Overlay
import LuaTree.Proofs.Convert.Runs

/-!
# What becomes of a batch

When the destinations of a batch are names below one base, and neither links nor files with several
names are in their way, what becomes of an item can be told from the store before and from the answer
of the decompiler alone (`Task.forecast`), whatever the other items do in the meantime. `Course` is
the invariant that says so: the store is the one before with the directories of the items that have
been prepared and the files of those that are finished laid over it. `Course.step` is the step lemma
and `Course.run` says it of every schedule.
-/

namespace LuaTree

open PathText Store

/-- A file to convert: its path, and the names by which its destination is found from the base. -/
structure Task where
  /-- The path of the file. -/
  source : PathText
  /-- The directories on the way. -/
  way : List Name
  /-- The name of the destination. -/
  name : Name

namespace Task

/-- The destination as a path. -/
def path (t : Task) (cs : List Component) : PathText := below cs (t.way ++ [t.name])

/-- The work item that a task is about. -/
def item (t : Task) (cs : List Component) : WorkItem := ⟨t.source, t.path cs⟩

/-- Where the destination is. -/
def place (t : Task) (a : Location) : Location := a ++ t.way ++ [t.name]

/-- What keeps one from creating the directories above the destination. -/
def blockage (t : Task) (s : Store) (cs : List Component) (a : Location) : Option Errno :=
  s.blockage a t.way (below cs t.way)

/-- What becomes of a task that begins in the store `s` when the decompiler gives this answer. -/
def forecast (t : Task) (s : Store) (cwd : Location) (cs : List Component) (a : Location)
    (answer : Except Error ProcessOutput) : Except Error Outcome :=
  match t.blockage s cs a with
  | some e => .error (.createDir (below cs t.way) (.os e))
  | none =>
    match Chunk.isCompiled s cwd t.source with
    | .error e => .error e
    | .ok false =>
      match s.copyFault (t.place a) (t.path cs) with
      | some e => .error (.copy t.source (t.path cs) (.os e))
      | none => .ok .copied
    | .ok true =>
      match answer with
      | .error e => .error e
      | .ok output =>
        if output.success then
          match s.publishFault cwd (t.place a) (t.path cs) with
          | some cause => .error (.fileWrite (t.path cs) cause)
          | none => .ok .converted
        else .error (.decompilerFailed t.source output)

/-- What the destination holds when the task has finished. -/
def content (t : Task) (s : Store) (cwd : Location) (answer : Except Error ProcessOutput) :
    Outcome → Inode
  | .copied =>
    match s.stat? cwd t.source with
    | .ok (_, .file i) => s.inode i
    | _ => ⟨[], 0⟩
  | .converted =>
    match answer with
    | .ok output => ⟨output.stdout, s.masked 0o666⟩
    | .error _ => ⟨[], 0⟩

/-- What is known of a task at a stage. -/
def Due (t : Task) (s : Store) (cwd : Location) (cs : List Component) (a : Location)
    (answer : Except Error ProcessOutput) : Stage → Prop
  | .prepare => True
  | .classify => t.blockage s cs a = none
  | .copy => t.blockage s cs a = none ∧ Chunk.isCompiled s cwd t.source = .ok false
  | .decompile => t.blockage s cs a = none ∧ Chunk.isCompiled s cwd t.source = .ok true
  | .publish data => t.blockage s cs a = none ∧ Chunk.isCompiled s cwd t.source = .ok true ∧
      ∃ output, answer = .ok output ∧ output.success ∧ output.stdout = data
  | .done result => result = t.forecast s cwd cs a answer

end Task

/-- The tasks of a batch, and the store in which it begins. -/
structure Scene (s : Store) (cwd : Location) (cs : List Component) (a : Location) (tasks : List Task) :
    Prop where
  sound : s.Sound cwd
  base : Base s cwd cs a
  names : ∀ {t : Task}, t ∈ tasks → ∀ n ∈ t.way ++ [t.name], IsName n
  no_nul : ∀ {t : Task}, t ∈ tasks → ∀ n ∈ t.way ++ [t.name], '\x00' ∉ n
  short : ∀ {t : Task}, t ∈ tasks → ∀ n ∈ t.way.tail ++ [t.name], Utf8.byteLength n ≤ nameLimit
  way_ne_nil : ∀ {t : Task}, t ∈ tasks → t.way ≠ []
  /-- On the way to a destination are directories, and files without other names. -/
  plain : ∀ {t : Task}, t ∈ tasks → ∀ front, front <+: t.way ++ [t.name] → front ≠ [] →
    ∀ e, s.entry? (a ++ front) = some e → e.isDir ∨
      ∃ i, e = .file i ∧ ∀ l, s.entry? l = some (.file i) → l = a ++ front
  /-- No destination is on the way to another one. -/
  apart : ∀ {j k : Nat} {t u : Task}, tasks[j]? = some t → tasks[k]? = some u →
    t.way ++ [t.name] <+: u.way ++ [u.name] → j = k
  /-- A source is a file, and not one that is written to, or its path is none that can be looked up. -/
  source : ∀ {t : Task}, t ∈ tasks → (∃ cause, checkText t.source = .error cause) ∨
    ∃ loc i, s.stat? cwd t.source = .ok (loc, .file i) ∧
      ∀ u ∈ tasks, u.blockage s cs a = none → loc ≠ u.place a

/-- Where nothing blocks, the directories above a destination can be entries. -/
theorem Scene.lawful_way {s : Store} {cwd : Location} {cs : List Component} {a : Location}
    {tasks : List Task} (scene : Scene s cwd cs a tasks) {t : Task} (ht : t ∈ tasks)
    (hb : t.blockage s cs a = none) : ∀ n ∈ t.way, Lawful n := by
  have short := short_of_blockage hb fun n hn => scene.short ht n (List.mem_append_left _ hn)
  intro n hn
  exact ⟨scene.names ht n (List.mem_append_left _ hn), scene.no_nul ht n (List.mem_append_left _ hn),
    short n hn⟩

/-- So can a destination. -/
theorem Scene.lawful_name {s : Store} {cwd : Location} {cs : List Component} {a : Location}
    {tasks : List Task} (scene : Scene s cwd cs a tasks) {t : Task} (ht : t ∈ tasks) : Lawful t.name :=
  have last : ∀ {front : List Name}, t.name ∈ front ++ [t.name] :=
    List.mem_append_right _ List.mem_cons_self
  ⟨scene.names ht _ last, scene.no_nul ht _ last, scene.short ht _ last⟩

/-! ## What one item contributes -/

/-- Some item of a batch is at a stage with a property. -/
def Among (cs : List Component) (tasks : List Task) (jobs : List (WorkItem × Stage))
    (P : Nat → Task → Stage → Prop) : Prop :=
  ∃ k t stage, tasks[k]? = some t ∧ jobs[k]? = some (t.item cs, stage) ∧ P k t stage

section

variable {cs : List Component} {tasks : List Task} {jobs : List (WorkItem × Stage)}
  {P : Nat → Task → Stage → Prop} {k : Nat} {t : Task} {stage stage' : Stage}

theorem among_set_iff (ht : tasks[k]? = some t) (hk : jobs[k]? = some (t.item cs, stage))
    (hP : ¬P k t stage) :
    Among cs tasks (jobs.set k (t.item cs, stage')) P ↔ Among cs tasks jobs P ∨ P k t stage' := by
  have self : (jobs.set k (t.item cs, stage'))[k]? = some (t.item cs, stage') :=
    List.getElem?_set_self (List.getElem?_eq_some_iff.1 hk).1
  constructor
  · rintro ⟨j, u, st, hu, hj, h⟩
    by_cases hjk : j = k
    · subst hjk
      cases hu.symm.trans ht
      cases self.symm.trans hj
      exact .inr h
    · rw [List.getElem?_set_ne (Ne.symm hjk)] at hj
      exact .inl ⟨j, u, st, hu, hj, h⟩
  · rintro (⟨j, u, st, hu, hj, h⟩ | h)
    · by_cases hjk : j = k
      · subst hjk
        cases hu.symm.trans ht
        cases hj.symm.trans hk
        exact absurd h hP
      · exact ⟨j, u, st, hu, by rwa [List.getElem?_set_ne (Ne.symm hjk)], h⟩
    · exact ⟨k, t, stage', ht, self, h⟩

/-- What an item contributes stays when its next stage contributes the same. -/
theorem among_set_of_iff (ht : tasks[k]? = some t) (hk : jobs[k]? = some (t.item cs, stage))
    (hP : P k t stage ↔ P k t stage') :
    Among cs tasks jobs P ↔ Among cs tasks (jobs.set k (t.item cs, stage')) P := by
  by_cases h : P k t stage
  · have self : (jobs.set k (t.item cs, stage'))[k]? = some (t.item cs, stage') :=
      List.getElem?_set_self (List.getElem?_eq_some_iff.1 hk).1
    exact ⟨fun _ => ⟨k, t, stage', ht, self, hP.1 h⟩, fun _ => ⟨k, t, stage, ht, hk, h⟩⟩
  · rw [among_set_iff ht hk h]
    exact ⟨.inl, fun hor => hor.elim id fun h' => absurd (hP.2 h') h⟩

end

section

variable (s : Store) (cwd : Location) (cs : List Component) (a : Location) (tasks : List Task)
  (answers : Nat → Except Error ProcessOutput)

/-- A directory on the way to the destination of an item that has been prepared. -/
def Made (jobs : List (WorkItem × Stage)) (l : Location) : Prop :=
  Among cs tasks jobs fun _ t stage => (stage.rank ≠ 0 ∧ t.blockage s cs a = none) ∧
    ∃ front, front <+: t.way ∧ front ≠ [] ∧ l = a ++ front

/-- The destination of an item that has finished, with what it holds. -/
def Finished (jobs : List (WorkItem × Stage)) (l : Location) (f : Inode) : Prop :=
  Among cs tasks jobs fun k t stage => ∃ outcome, stage = .done (.ok outcome) ∧ l = t.place a ∧
    f = t.content s cwd (answers k) outcome

/-- A batch on its way: every item is where the forecast has it, and the store is the one before with
what the items did laid over it. -/
structure Course (b : BatchState) : Prop where
  items : b.jobs.map Prod.fst = tasks.map fun t => t.item cs
  due : ∀ {k : Nat} {t : Task} {stage : Stage}, tasks[k]? = some t → b.jobs[k]? = some (t.item cs, stage) →
    t.Due s cwd cs a (answers k) stage
  overlay : Overlay s b.store cwd (Made s cs a tasks b.jobs) (Finished s cwd cs a tasks answers b.jobs)

end

variable {s : Store} {cwd : Location} {cs : List Component} {a : Location} {tasks : List Task}
  {answers : Nat → Except Error ProcessOutput} {b : BatchState} {d : Decompiler} {k : Nat} {t : Task}
  {stage : Stage}

theorem Course.initial (scene : Scene s cwd cs a tasks) :
    Course s cwd cs a tasks answers (.initial s (tasks.map fun t => t.item cs)) := by
  have first : ∀ {k : Nat} {item : WorkItem} {stage : Stage},
      (BatchState.initial s (tasks.map fun t => t.item cs)).jobs[k]? = some (item, stage) →
      stage = .prepare := by
    intro k item stage h
    obtain ⟨_, _, he⟩ := List.mem_map.1 (List.mem_of_getElem? h)
    cases he
    rfl
  refine ⟨BatchState.items_initial s _, fun _ hk => ?_, (Overlay.refl scene.sound).congr ?_ ?_⟩
  · obtain rfl := first hk
    trivial
  · refine fun l => ⟨False.elim, ?_⟩
    rintro ⟨k, t, stage, _, hk, ⟨hr, _⟩, _⟩
    rw [first hk] at hr
    exact hr rfl
  · refine fun l f => ⟨False.elim, ?_⟩
    rintro ⟨k, t, stage, _, hk, outcome, hd, _⟩
    rw [first hk] at hd
    cases hd

/-! ## Forecasts -/

namespace Task

theorem forecast_of_blockage {e : Errno} (hb : t.blockage s cs a = some e)
    (answer : Except Error ProcessOutput) :
    t.forecast s cwd cs a answer = .error (.createDir (below cs t.way) (.os e)) := by
  unfold forecast
  rw [hb]

variable (hb : t.blockage s cs a = none)

include hb

theorem forecast_of_unread {e : Error} (hc : Chunk.isCompiled s cwd t.source = .error e)
    (answer : Except Error ProcessOutput) :
    t.forecast s cwd cs a answer = .error e := by
  unfold forecast
  rw [hb]
  dsimp only
  rw [hc]

theorem forecast_of_plain (hc : Chunk.isCompiled s cwd t.source = .ok false)
    (answer : Except Error ProcessOutput) :
    t.forecast s cwd cs a answer =
      match s.copyFault (t.place a) (t.path cs) with
      | some e => .error (.copy t.source (t.path cs) (.os e))
      | none => .ok .copied := by
  unfold forecast
  rw [hb]
  dsimp only
  rw [hc]

variable (hc : Chunk.isCompiled s cwd t.source = .ok true)

include hc

theorem forecast_of_unanswered {e : Error} : t.forecast s cwd cs a (.error e) = .error e := by
  unfold forecast
  rw [hb]
  dsimp only
  rw [hc]

theorem forecast_of_failure {output : ProcessOutput} (failed : output.success = false) :
    t.forecast s cwd cs a (.ok output) = .error (.decompilerFailed t.source output) := by
  unfold forecast
  rw [hb]
  dsimp only
  rw [hc]
  dsimp only
  rw [failed, if_neg Bool.false_ne_true]

theorem forecast_of_success {output : ProcessOutput} (success : output.success = true) :
    t.forecast s cwd cs a (.ok output) =
      match s.publishFault cwd (t.place a) (t.path cs) with
      | some cause => .error (.fileWrite (t.path cs) cause)
      | none => .ok .converted := by
  unfold forecast
  rw [hb]
  dsimp only
  rw [hc]
  dsimp only
  rw [success, if_pos rfl]

end Task

/-! ## What an item meets on its way -/

theorem Task.blockage_of_forecast {answer : Except Error ProcessOutput} {outcome : Outcome}
    (h : t.forecast s cwd cs a answer = .ok outcome) : t.blockage s cs a = none := by
  cases hb : t.blockage s cs a with
  | none => rfl
  | some e =>
    rw [forecast_of_blockage hb] at h
    cases h

namespace Course

theorem blockage_of_done (h : Course s cwd cs a tasks answers b) (ht : tasks[k]? = some t)
    {outcome : Outcome} (hk : b.jobs[k]? = some (t.item cs, .done (.ok outcome))) :
    t.blockage s cs a = none :=
  Task.blockage_of_forecast (h.due ht hk).symm

/-- Nothing is finished on the way to a destination, nor there before its own item has finished. -/
theorem clear (answers : Nat → Except Error ProcessOutput) (scene : Scene s cwd cs a tasks)
    (ht : tasks[k]? = some t) (hk : b.jobs[k]? = some (t.item cs, stage)) {front : List Name}
    (hp : front <+: t.way ++ [t.name])
    (h : front ≠ t.way ++ [t.name] ∨ ∀ outcome, stage ≠ .done (.ok outcome)) :
    ∀ f, ¬Finished s cwd cs a tasks answers b.jobs (a ++ front) f := by
  rintro f ⟨j, u, st, hu, hj, outcome, rfl, hl, _⟩
  rw [Task.place, List.append_assoc, List.append_cancel_left_eq] at hl
  obtain rfl := scene.apart hu ht (hl ▸ hp)
  cases hu.symm.trans ht
  cases hj.symm.trans hk
  rcases h with h | h
  · exact h hl
  · exact h outcome rfl

/-- No directory is made at a destination. -/
theorem unmade (scene : Scene s cwd cs a tasks) (ht : tasks[k]? = some t) :
    ¬Made s cs a tasks b.jobs (t.place a) := by
  rintro ⟨j, u, st, hu, hj, _, front, hp, _, hl⟩
  rw [Task.place, List.append_assoc, List.append_cancel_left_eq] at hl
  have := scene.apart ht hu (hl ▸ hp.trans ⟨[u.name], rfl⟩)
  subst this
  cases ht.symm.trans hu
  have := (hl ▸ hp).length_le
  rw [List.length_append, List.length_singleton] at this
  omega

/-- No source has been written to. -/
theorem source_clear (h : Course s cwd cs a tasks answers b) {loc : Location}
    (hs : ∀ u ∈ tasks, u.blockage s cs a = none → loc ≠ u.place a) :
    ∀ f, ¬Finished s cwd cs a tasks answers b.jobs loc f := by
  rintro f ⟨j, u, st, hu, hj, outcome, rfl, hl, _⟩
  exact hs u (List.mem_of_getElem? hu) (h.blockage_of_done hu hj) hl

variable (scene : Scene s cwd cs a tasks) (h : Course s cwd cs a tasks answers b)
  (ht : tasks[k]? = some t) (hk : b.jobs[k]? = some (t.item cs, stage))

include scene h ht hk

/-- On the way to a destination there are no links. -/
theorem linkFree (hnot : ∀ outcome, stage ≠ .done (.ok outcome)) :
    LinkFree b.store a (t.way ++ [t.name]) := by
  intro front hp hne target he
  rcases h.overlay.entry_cases (clear _ scene ht hk hp (.inr hnot)) with hs | ⟨_, hd⟩
  · rcases scene.plain (List.mem_of_getElem? ht) front hp hne _ (hs.symm.trans he) with
      hd | ⟨i, hi, _⟩
    · cases hd
    · cases hi
  · cases hd.symm.trans he

omit hk in
theorem approach : Approach b.store cwd (t.path cs) a (t.way ++ [t.name]) :=
  (scene.base.mono h.overlay.keeps).approach (scene.names (List.mem_of_getElem? ht))
    (scene.no_nul (List.mem_of_getElem? ht)) (List.concat_ne_nil _ _)

theorem entry_place (hnot : ∀ outcome, stage ≠ .done (.ok outcome)) :
    b.store.entry? (t.place a) = s.entry? (t.place a) := by
  have nothing := clear answers scene ht hk List.prefix_rfl (.inr hnot)
  rw [← List.append_assoc] at nothing
  exact h.overlay.old nothing fun hm => unmade scene ht hm.1

omit hk in
theorem holdsDir_place : b.store.holdsDir (t.place a) = s.holdsDir (t.place a) :=
  h.overlay.holdsDir_eq (unmade scene ht)

omit hk in
theorem publishFault_eq :
    b.store.publishFault cwd (t.place a) (t.path cs) = s.publishFault cwd (t.place a) (t.path cs) := by
  have here := scene.sound.holdsDir_cwd_eq h.overlay.sound.wellNamed fun _ => h.overlay.keeps.holdsDir
  exact publishFault_congr here (holdsDir_place scene h ht) _

/-- The directories of an item that has been prepared are there. -/
theorem hindrance_eq_none (hr : stage.rank ≠ 0) (hb : t.blockage s cs a = none) :
    b.store.hindrance a t.way = none := by
  have short := scene.short (List.mem_of_getElem? ht)
  refine hindrance_of_holdsDir (short_of_blockage hb fun n hn => ?_) fun front hp hne => ?_
  · exact short n (List.mem_append_left _ hn)
  · exact h.overlay.there ⟨k, t, stage, ht, hk, ⟨hr, hb⟩, front, hp, hne, rfl⟩

theorem blockage_eq : b.store.blockage a t.way (below cs t.way) = t.blockage s cs a := by
  rw [Task.blockage, blockage, blockage, h.overlay.obstacle_eq scene.sound.toRooted]
  · exact fun n hn => scene.short (List.mem_of_getElem? ht) n (List.mem_append_left _ hn)
  · intro front hp _
    refine clear _ scene ht hk (hp.trans ⟨[t.name], rfl⟩) (.inl ?_)
    rintro rfl
    have := hp.length_le
    rw [List.length_append, List.length_singleton] at this
    omega

omit hk in
theorem isCompiled_eq : Chunk.isCompiled b.store cwd t.source = Chunk.isCompiled s cwd t.source := by
  rcases scene.source (List.mem_of_getElem? ht) with ⟨cause, hc⟩ | ⟨loc, i, hs, apart⟩
  · rw [isCompiled_of_checkText hc, isCompiled_of_checkText hc]
  · obtain ⟨hu, hi⟩ := h.overlay.stat?_eq hs (source_clear h apart)
    rw [isCompiled_of_file hs, isCompiled_of_file hu, hi]

/-! ## One stage -/

omit scene in
/-- Where an item goes on, the batch does. -/
theorem advance (stage' : Stage) (u : Store) (notices : List Notice)
    (step : ItemState.step d cwd (t.item cs) ⟨stage, b.store, []⟩ = ⟨stage', u, notices⟩)
    (due : t.Due s cwd cs a (answers k) stage')
    (overlay : Overlay s u cwd (Made s cs a tasks (b.jobs.set k (t.item cs, stage')))
      (Finished s cwd cs a tasks answers (b.jobs.set k (t.item cs, stage')))) :
    Course s cwd cs a tasks answers (b.step d cwd k) := by
  refine ⟨(BatchState.items_step k).trans h.items, fun {j u st} hu hj => ?_, ?_⟩
  · by_cases hjk : j = k
    · subst hjk
      cases hu.symm.trans ht
      rw [BatchState.getElem?_step_self hk, step] at hj
      cases hj
      exact due
    · rw [BatchState.getElem?_step_of_ne hjk] at hj
      exact h.due hu hj
  · rw [BatchState.step_of_some hk, step]
    exact overlay

omit scene h in
/-- A stage that contributes nothing new. -/
theorem over_set {stage' : Stage} {u : Store}
    (overlay : Overlay s u cwd (Made s cs a tasks b.jobs) (Finished s cwd cs a tasks answers b.jobs))
    (hm : (stage.rank ≠ 0 ∧ t.blockage s cs a = none) ↔ (stage'.rank ≠ 0 ∧ t.blockage s cs a = none))
    (hf : ∀ outcome, stage ≠ .done (.ok outcome)) (hf' : ∀ outcome, stage' ≠ .done (.ok outcome)) :
    Overlay s u cwd (Made s cs a tasks (b.jobs.set k (t.item cs, stage')))
      (Finished s cwd cs a tasks answers (b.jobs.set k (t.item cs, stage'))) := by
  refine overlay.congr (fun l => among_set_of_iff ht hk (and_congr_left' hm)) fun l f =>
    among_set_of_iff ht hk ⟨?_, ?_⟩
  · rintro ⟨outcome, he, _⟩
    exact absurd he (hf outcome)
  · rintro ⟨outcome, he, _⟩
    exact absurd he (hf' outcome)

/-- A stage that finishes the item: its destination holds what it should. -/
theorem over_finish {outcome : Outcome} {u : Store} (hr : stage.rank ≠ 0)
    (hb : t.blockage s cs a = none) (hf : ∀ outcome, stage ≠ .done (.ok outcome))
    (hd : ¬s.holdsDir (t.place a))
    (wrote : Wrote b.store u (t.place a) (t.content s cwd (answers k) outcome)) :
    Overlay s u cwd (Made s cs a tasks (b.jobs.set k (t.item cs, .done (.ok outcome))))
      (Finished s cwd cs a tasks answers (b.jobs.set k (t.item cs, .done (.ok outcome)))) := by
  have mem := List.mem_of_getElem? ht
  have nothing := clear answers scene ht hk List.prefix_rfl (.inr hf)
  have plain := scene.plain mem _ List.prefix_rfl (List.concat_ne_nil _ _)
  rw [← List.append_assoc] at nothing plain
  have above := holdsDir_of_hindrance (approach scene h ht).holdsDir
    (hindrance_eq_none scene h ht hk hr hb)
  have sound : u.Sound cwd := by
    refine Wrote.sound wrote h.overlay.sound above (scene.lawful_name mem) ?_
    rw [← Task.place, holdsDir_place scene h ht]
    exact hd
  refine (h.overlay.wrote wrote sound nothing (unmade scene ht) (fun e he => ?_) fun i hi => ?_).congr
    (fun l => among_set_of_iff ht hk ?_) fun l f => ?_
  · rcases plain e he with hdir | ⟨i, rfl, _⟩
    · refine absurd ?_ hd
      rw [Store.holdsDir, he]
      exact hdir
    · rfl
  · refine h.overlay.lone nothing hi fun hs => ?_
    rcases plain _ hs with hdir | ⟨j, hj, alone⟩
    · cases hdir
    · cases hj
      exact alone
  · have rank : (Stage.done (.ok outcome)).rank ≠ 0 := by simp [Stage.rank]
    simp [hr, rank]
  · -- the item has not been among the finished ones before
    have fresh : ¬∃ o, stage = .done (.ok o) ∧ l = t.place a ∧ f = t.content s cwd (answers k) o := by
      rintro ⟨o, he, _⟩
      exact hf o he
    refine ((among_set_iff ht hk fresh).trans (or_congr_right ?_)).symm
    constructor
    · rintro ⟨o, ho, hl, hc⟩
      cases ho
      exact ⟨hl, hc⟩
    · rintro ⟨hl, hc⟩
      exact ⟨outcome, rfl, hl, hc⟩

omit hk in
theorem step_prepare (hk : b.jobs[k]? = some (t.item cs, .prepare)) :
    Course s cwd cs a tasks answers (b.step d cwd k) := by
  have mem := List.mem_of_getElem? ht
  have free := linkFree scene h ht hk (by simp)
  have made := ensureParent_below h.overlay.sound (scene.base.mono h.overlay.keeps) (scene.names mem)
    (scene.no_nul mem) (fun n hn => scene.short mem n (List.mem_append_left _ hn))
    (free.front ⟨[t.name], rfl⟩) (scene.way_ne_nil mem)
  rw [blockage_eq scene h ht hk] at made
  cases hb : t.blockage s cs a with
  | some e =>
    rw [hb] at made
    have made : ensureParent b.store cwd (t.item cs).destination = _ := made
    refine advance h ht hk (.done (.error (.createDir (below cs t.way) (.os e))))
      b.store [] ?_ ?_ ?_
    · rw [ItemState.step, made]
    · exact (Task.forecast_of_blockage hb (answers k)).symm
    · exact over_set ht hk h.overlay (by simp [hb]) (by simp) (by simp)
  | none =>
    rw [hb] at made
    obtain ⟨u, made, filled⟩ := made
    have made : ensureParent b.store cwd (t.item cs).destination = _ := made
    refine advance h ht hk .classify u [] ?_ hb ?_
    · rw [ItemState.step, made]
    · have unprepared : ∀ l, ¬((Stage.prepare.rank ≠ 0 ∧ t.blockage s cs a = none) ∧
          ∃ front, front <+: t.way ∧ front ≠ [] ∧ l = a ++ front) := fun l hl => hl.1.1 rfl
      refine (h.overlay.filled filled (scene.lawful_way mem hb)).congr (fun l => ?_) fun l f =>
        among_set_of_iff ht hk ?_
      · refine ((among_set_iff ht hk (unprepared l)).trans (or_congr_right ?_)).symm
        exact ⟨fun hl => hl.2, fun hl => ⟨⟨by simp [Stage.rank], hb⟩, hl⟩⟩
      · constructor <;> rintro ⟨_, he, _⟩ <;> cases he

omit hk in
theorem step_classify (hk : b.jobs[k]? = some (t.item cs, .classify)) :
    Course s cwd cs a tasks answers (b.step d cwd k) := by
  have hb : t.blockage s cs a = none := h.due ht hk
  have classified : Chunk.isCompiled b.store cwd (t.item cs).source = _ := isCompiled_eq scene h ht
  cases hc : Chunk.isCompiled s cwd t.source with
  | error e =>
    rw [hc] at classified
    refine advance h ht hk (.done (.error e)) b.store [] ?_
      (Task.forecast_of_unread hb hc (answers k)).symm
      (over_set ht hk h.overlay (by simp [Stage.rank]) (by simp) (by simp))
    rw [ItemState.step, classified]
  | ok compiled =>
    rw [hc] at classified
    cases compiled with
    | false =>
      refine advance h ht hk .copy b.store [.copying t.source] ?_
        ⟨hb, hc⟩ (over_set ht hk h.overlay (by simp [Stage.rank]) (by simp) (by simp))
      rw [ItemState.step, classified]
      rfl
    | true =>
      refine advance h ht hk .decompile b.store
        [.decompiling t.source] ?_ ⟨hb, hc⟩
        (over_set ht hk h.overlay (by simp [Stage.rank]) (by simp) (by simp))
      rw [ItemState.step, classified]
      rfl

omit hk in
theorem step_copy (hk : b.jobs[k]? = some (t.item cs, .copy)) :
    Course s cwd cs a tasks answers (b.step d cwd k) := by
  have mem := List.mem_of_getElem? ht
  obtain ⟨hb, hc⟩ : t.blockage s cs a = none ∧ Chunk.isCompiled s cwd t.source = .ok false :=
    h.due ht hk
  obtain ⟨loc, i, hs, apart⟩ : ∃ loc i, s.stat? cwd t.source = .ok (loc, .file i) ∧
      ∀ u ∈ tasks, u.blockage s cs a = none → loc ≠ u.place a := by
    rcases scene.source mem with ⟨cause, he⟩ | found
    · rw [isCompiled_of_checkText he] at hc
      cases hc
    · exact found
  obtain ⟨hu, hi⟩ := h.overlay.stat?_eq hs (source_clear h apart)
  have plain : ∀ e, b.store.entry? (a ++ t.way ++ [t.name]) = some e →
      e.isDir ∨ ∃ j, e = .file j ∧ i ≠ j := by
    intro e he
    have hse := (entry_place scene h ht hk (by simp)).symm.trans he
    rw [Task.place, List.append_assoc] at hse
    rcases scene.plain mem _ List.prefix_rfl (List.concat_ne_nil _ _) e hse with hd | ⟨j, rfl, alone⟩
    · exact .inl hd
    · refine .inr ⟨j, rfl, fun hij => ?_⟩
      refine apart t mem hb ?_
      rw [alone loc (hij ▸ entry_of_lookup (stat?_eq_ok_iff_lookup.1 hs) rfl), Task.place, List.append_assoc]
  have copied := copyVerbatim_below h.overlay.sound (approach scene h ht)
    (linkFree scene h ht hk (by simp)) (hindrance_eq_none scene h ht hk (by simp [Stage.rank]) hb)
    (scene.lawful_name mem).short hu plain
  have fault : b.store.copyFault (t.place a) (t.path cs) = s.copyFault (t.place a) (t.path cs) := by
    rw [copyFault, copyFault, holdsDir_place scene h ht]
  have forecast := Task.forecast_of_plain hb hc (answers k)
  rw [← Task.place, fault] at copied
  -- the fault is the same in the store of the batch, so that the stage ends as was forecast
  cases hf : s.copyFault (t.place a) (t.path cs) with
  | some e =>
    rw [hf] at copied forecast
    have copied : copyVerbatim b.store cwd (t.item cs).source (t.item cs).destination = _ := copied
    refine advance h ht hk (.done (.error (.copy t.source (t.path cs) (.os e))))
      b.store [] ?_ forecast.symm
      (over_set ht hk h.overlay (by simp [Stage.rank]) (by simp) (by simp))
    rw [ItemState.step, copied]
  | none =>
    rw [hf] at copied forecast
    obtain ⟨u, copied, wrote⟩ := copied
    have copied : copyVerbatim b.store cwd (t.item cs).source (t.item cs).destination = _ := copied
    have content : t.content s cwd (answers k) .copied = b.store.inode i := by
      rw [Task.content, hs, hi]
    rw [← content] at wrote
    refine advance h ht hk (.done (.ok .copied)) u [] ?_ forecast.symm
      (over_finish scene h ht hk (by simp [Stage.rank]) hb (by simp) (not_holdsDir_of_copyFault hf) wrote)
    rw [ItemState.step, copied]

omit hk scene in
theorem step_decompile (quiet : d.Quiet) (hk : b.jobs[k]? = some (t.item cs, .decompile))
    (answer : (d.decompile b.store t.source).result = answers k) :
    Course s cwd cs a tasks answers (b.step d cwd k) := by
  obtain ⟨hb, hc⟩ : t.blockage s cs a = none ∧ Chunk.isCompiled s cwd t.source = .ok true :=
    h.due ht hk
  have same : (d.decompile b.store (t.item cs).source).store = b.store := quiet _ _
  have answer : (d.decompile b.store (t.item cs).source).result = answers k := answer
  cases ha : answers k with
  | error e =>
    rw [ha] at answer
    refine advance h ht hk (.done (.error e)) b.store
      ([] ++ (d.decompile b.store (t.item cs).source).notices) ?_ ?_
      (over_set ht hk h.overlay (by simp [Stage.rank]) (by simp) (by simp))
    · rw [ItemState.step_decompile, answer, same]
    · rw [ha]
      exact (Task.forecast_of_unanswered hb hc).symm
  | ok output =>
    rw [ha] at answer
    cases hs : output.success with
    | true =>
      refine advance h ht hk (.publish output.stdout) b.store
        ([] ++ (d.decompile b.store (t.item cs).source).notices) ?_
        ⟨hb, hc, output, ha, hs, rfl⟩
        (over_set ht hk h.overlay (by simp [Stage.rank]) (by simp) (by simp))
      rw [ItemState.step_decompile, answer, same]
      dsimp only
      rw [if_pos hs]
    | false =>
      refine advance h ht hk (.done (.error (.decompilerFailed t.source output)))
        b.store ([] ++ (d.decompile b.store (t.item cs).source).notices) ?_ ?_
        (over_set ht hk h.overlay (by simp [Stage.rank]) (by simp) (by simp))
      · rw [ItemState.step_decompile, answer, same]
        dsimp only
        rw [if_neg (by simp [hs])]
        rfl
      · rw [ha]
        exact (Task.forecast_of_failure hb hc hs).symm

omit hk in
theorem step_publish {data : Bytes} (hk : b.jobs[k]? = some (t.item cs, .publish data)) :
    Course s cwd cs a tasks answers (b.step d cwd k) := by
  have mem := List.mem_of_getElem? ht
  obtain ⟨hb, hc, output, ha, hs, rfl⟩ : t.blockage s cs a = none ∧
      Chunk.isCompiled s cwd t.source = .ok true ∧
      ∃ output, answers k = .ok output ∧ output.success ∧ output.stdout = data := h.due ht hk
  have published := publish_below (approach scene h ht)
    ((linkFree scene h ht hk (by simp)).front ⟨[t.name], rfl⟩)
    (hindrance_eq_none scene h ht hk (by simp [Stage.rank]) hb) (scene.lawful_name mem).short
    (fun _ => scratch_below h.overlay.sound.wellNamed (scene.base.mono h.overlay.keeps) (scene.names mem)
      (scene.no_nul mem) (scene.way_ne_nil mem)) output.stdout
  have fault := publishFault_eq scene h ht
  have forecast := Task.forecast_of_success hb hc hs
  rw [← ha] at forecast
  have published : match b.store.publishFault cwd (t.place a) (t.path cs) with
      | some cause => ∃ u, publish b.store cwd (t.item cs).destination output.stdout =
          (.error (.fileWrite (t.path cs) cause), u) ∧ Untouched b.store u
      | none => ∃ u, publish b.store cwd (t.item cs).destination output.stdout = (.ok (), u) ∧
          Wrote b.store u (t.place a) ⟨output.stdout, b.store.masked 0o666⟩ := published
  rw [fault] at published
  -- the fault is the same in the store of the batch, so that the stage ends as was forecast
  cases hf : s.publishFault cwd (t.place a) (t.path cs) with
  | some cause =>
    rw [hf] at published forecast
    obtain ⟨u, published, same⟩ := published
    refine advance h ht hk (.done (.error (.fileWrite (t.path cs) cause))) u
      [] ?_ forecast.symm
      (over_set ht hk (h.overlay.untouched same) (by simp [Stage.rank]) (by simp) (by simp))
    rw [ItemState.step_publish, published]
  | none =>
    rw [hf] at published forecast
    obtain ⟨u, published, wrote⟩ := published
    have content : t.content s cwd (answers k) .converted = ⟨output.stdout, s.masked 0o666⟩ := by
      unfold Task.content
      rw [ha]
    rw [h.overlay.masked_eq, ← content] at wrote
    refine advance h ht hk (.done (.ok .converted)) u [] ?_ forecast.symm
      (over_finish scene h ht hk (by simp [Stage.rank]) hb (by simp) (publishFault_eq_none.1 hf).2.2 wrote)
    rw [ItemState.step_publish, published]

omit ht hk in
/-- Whoever's turn it is, the batch stays on its course. -/
theorem step (quiet : d.Quiet) (k : Nat)
    (answer : ∀ t, tasks[k]? = some t → b.jobs[k]? = some (t.item cs, .decompile) →
      (d.decompile b.store t.source).result = answers k) :
    Course s cwd cs a tasks answers (b.step d cwd k) := by
  cases hk : b.jobs[k]? with
  | none =>
    rw [BatchState.step_of_none hk]
    exact h
  | some job =>
    obtain ⟨item, stage⟩ := job
    obtain ⟨t, ht, rfl⟩ : ∃ t, tasks[k]? = some t ∧ t.item cs = item := by
      have hi := congrArg (·[k]?) h.items
      simp only [List.getElem?_map, hk, Option.map_some] at hi
      exact Option.map_eq_some_iff.1 hi.symm
    cases stage with
    | prepare => exact step_prepare scene h ht hk
    | classify => exact step_classify scene h ht hk
    | copy => exact step_copy scene h ht hk
    | decompile => exact step_decompile h ht quiet hk (answer t ht hk)
    | publish data => exact step_publish scene h ht hk
    | done result =>
      refine advance h ht hk (.done result) b.store [] ?_ (h.due ht hk) ?_
      · exact ItemState.step_of_done rfl
      · obtain ⟨hlt, he⟩ := List.getElem?_eq_some_iff.1 hk
        rw [← he, List.set_getElem_self]
        exact h.overlay

omit ht hk h in
/-- A batch keeps its course under any schedule. -/
theorem run (quiet : d.Quiet) (schedule : List Nat) (h : Course s cwd cs a tasks answers b)
    (answer : ∀ before k after t, schedule = before ++ k :: after → tasks[k]? = some t →
      (b.run d cwd before).jobs[k]? = some (t.item cs, .decompile) →
      Course s cwd cs a tasks answers (b.run d cwd before) →
      (d.decompile (b.run d cwd before).store t.source).result = answers k) :
    Course s cwd cs a tasks answers (b.run d cwd schedule) := by
  induction schedule generalizing b with
  | nil => exact h
  | cons k schedule ih =>
    refine ih (h.step scene quiet k fun t ht hk => answer [] k schedule t rfl ht hk h) ?_
    intro before j after t hs ht hj hc
    exact answer (k :: before) j after t (by rw [hs]; rfl) ht hj hc

end Course

end LuaTree

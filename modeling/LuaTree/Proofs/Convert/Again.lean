import LuaTree.Proofs.Convert.Single

/-!
# Converting again

A conversion in a store of directories and regular files, none of them under two names, can be repeated:
it comes to the same report, and changes nothing any more (`converts_again`).

For a directory, the plan is the one before, since the walk leaves out what was written
(`route_iff_of_course`); the forecast for each item is the one before as well, whatever the item came to
(`Course.forecast_eq`). So the same directories and files are laid over the store again.
-/

namespace LuaTree

open PathText Store

variable {s t u : Store} {cwd : Location} {input : PathText} {d : Decompiler}

/-! ## After a batch -/

section

variable {a top dir : Location} {cs : List Component} {tasks : List Task} {b b' : BatchState}
  {answers : Nat → Except Error ProcessOutput} {k : Nat} {v : Task}

section

variable (scene : Scene s cwd cs a tasks) (h : Course s cwd cs a tasks answers b) (done : b.isDone)
  (hv : tasks[k]? = some v)

include scene h done hv

/-- Nothing that was done is in the way of doing it again. -/
theorem Course.blockage_eq_of_isDone : v.blockage b.store cs a = v.blockage s cs a :=
  Course.blockage_eq scene h hv (h.job_of_isDone done hv)

/-- What is forecast for an item is what was forecast before. -/
theorem Course.forecast_eq (answer : Except Error ProcessOutput) :
    v.forecast b.store cwd cs a answer = v.forecast s cwd cs a answer := by
  have blockage := h.blockage_eq_of_isDone scene done hv
  have compiled := Course.isCompiled_eq scene h hv
  have copy : b.store.copyFault (v.place a) (v.path cs) = s.copyFault (v.place a) (v.path cs) := by
    rw [copyFault, copyFault, Course.holdsDir_place scene h hv]
  unfold Task.forecast
  rw [blockage, compiled, copy, Course.publishFault_eq scene h hv]

omit done in
theorem Course.content_eq (answer : Except Error ProcessOutput) (outcome : Outcome) :
    v.content b.store cwd answer outcome = v.content s cwd answer outcome := by
  cases outcome with
  | converted =>
    unfold Task.content
    rw [h.overlay.masked_eq]
  | copied =>
    rw [Task.content, Task.content]
    rcases scene.source (List.mem_of_getElem? hv) with ⟨cause, hc⟩ | ⟨loc, i, hs, apart⟩
    · rw [stat?_of_lookup_error (lookup_of_checkText_error s cwd .follow hc),
        stat?_of_lookup_error (lookup_of_checkText_error b.store cwd .follow hc)]
    · obtain ⟨hu, hi⟩ := h.overlay.stat?_eq hs (Course.source_clear h apart)
      rw [hs, hu]
      exact hi

end

/-- A batch that ends well changes nothing when it is converted again, and comes to the same report. -/
theorem Course.again (scene : Scene s cwd cs a tasks) (h : Course s cwd cs a tasks answers b)
    (done : b.isDone) (h' : Course b.store cwd cs a tasks answers b') (done' : b'.isDone) :
    b'.report = b.report ∧ Same b.store b'.store := by
  -- the second run lays the same directories and files over the store as the first
  have made : ∀ l, Made b.store cs a tasks b'.jobs l ↔ Made s cs a tasks b.jobs l := by
    intro l
    rw [h'.made_iff done', h.made_iff done]
    refine exists_congr fun v => and_congr_right fun hv => and_congr_left' ?_
    obtain ⟨k, hk⟩ := List.mem_iff_getElem?.1 hv
    rw [h.blockage_eq_of_isDone scene done hk]
  have finished : ∀ l f, Finished b.store cwd cs a tasks answers b'.jobs l f ↔
      Finished s cwd cs a tasks answers b.jobs l f := by
    intro l f
    rw [h'.finished_iff done', h.finished_iff done]
    refine exists_congr fun k => exists_congr fun v => exists_congr fun outcome =>
      and_congr_right fun hv => ?_
    rw [h.forecast_eq scene done hv, h.content_eq scene hv]
  have jobs : b'.jobs = b.jobs := by
    refine List.ext_getElem? fun k => ?_
    cases hv : tasks[k]? with
    | some v => rw [h'.job_of_isDone done' hv, h.job_of_isDone done hv, h.forecast_eq scene done hv]
    | none => rw [h'.job_of_none hv, h.job_of_none hv]
  refine ⟨?_, h.overlay.again (h'.overlay.congr made finished)⟩
  rw [BatchState.report, BatchState.report, jobs]

end

/-! ## Directories -/

section

variable {top dir : Location} {output : PathText} {cs : List Component} {m : Name} {mode : Nat}
  {routes : List (List Name)} {answers : Nat → Except Error ProcessOutput} {b : BatchState}

/-- A walk has the routes that it had: what was written is in the output directory. -/
theorem route_iff_of_course (wellNamed : s.WellNamed) (plain : s.Plain)
    (h : s.stat? cwd input = .ok (top, .dir mode)) (there : s.entry? top = some (.dir mode))
    (ho : Plan.directoryOutput s cwd input = .ok output) (outlet : Outlet s cwd top output cs dir m)
    (mem : ∀ ns ∈ routes, Walk.Route s cwd input output ns)
    (course : Course s cwd cs dir (routes.map (taskAt input m)) answers b)
    (h' : b.store.stat? cwd input = .ok (top, .dir mode))
    (ho' : Plan.directoryOutput b.store cwd input = .ok output) (ns : List Name) :
    Walk.Route b.store cwd input output ns ↔ Walk.Route s cwd input output ns := by
  rw [plain.route_iff wellNamed h there ho outlet, (course.overlay.plain plain).route_iff
    course.overlay.sound.wellNamed h' (course.overlay.keeps _ _ there rfl) ho'
    (outlet.mono plain course.overlay.keeps)]
  refine and_congr_left fun aside => ?_
  have clear : ∀ f, ¬Finished s cwd cs dir (routes.map (taskAt input m)) answers b.jobs (top ++ ns) f := by
    rintro f ⟨k, v, stage, hv, hk, outcome, rfl, hl, _⟩
    obtain ⟨ks, hks, rfl⟩ := List.mem_map.1 (List.mem_of_getElem? hv)
    have route := mem ks hks
    rw [taskAt_place route.ne_nil] at hl
    exact not_below_output plain outlet route.ne_nil aside.2 hl
  rcases course.overlay.entry_cases clear with he | ⟨hs, hd⟩
  · rw [he]
  · rw [hs, hd]
    simp

/-- The output directory of a path is the same in a store that keeps its directories and links. -/
theorem directoryOutput_congr (rooted : s.Rooted) (keeps : Keeps s t)
    (here : t.holdsDir cwd = s.holdsDir cwd) (h : s.stat? cwd input = .ok (top, .dir mode))
    (there : s.entry? top = some (.dir mode)) :
    Plan.directoryOutput t cwd input = Plan.directoryOutput s cwd input := by
  obtain ⟨_, k, _, hr⟩ := lookup_eq_ok.1 (stat?_eq_ok_iff_lookup.1 h)
  unfold Plan.directoryOutput
  rw [canonical?_congr rooted keeps here hr ((keeps _ _ there rfl).trans there.symm)]

end

/-- A directory that was converted has the plan that it had, and converting it again changes nothing. -/
theorem again_of_directory (sound : s.Sound cwd) (plain : s.Plain) (quiet : d.Quiet)
    (byContents : d.ByContents cwd) {plan : Plan} {report : BatchReport} (hd : s.isDir cwd input)
    (planned : Plan.ofInput s cwd input = .ok plan) (h : Ends d cwd s plan.items t report) :
    ∃ plan', Plan.ofInput t cwd input = .ok plan' ∧ ∀ u report', Ends d cwd t plan'.items u report' →
      report' = report ∧ Same t u := by
  obtain ⟨top, mode, hs⟩ := isDir_iff.1 hd
  rcases Plan.stranded_or_planned hd with ⟨cause, stranded⟩ | ⟨output, ho, made⟩
  · cases (Plan.ofInput_of_stranded stranded).symm.trans planned
  cases made.symm.trans planned
  obtain ⟨there, cs, dir, m, outlet⟩ := outlet_of_directoryOutput sound.wellNamed hs ho
  obtain ⟨routes, items, mem, sorted⟩ := Plan.items_ofDirectory sound.wellNamed hd output
  have mem : ∀ ns ∈ routes, Walk.Route s cwd input output ns := fun ns hns => (mem ns).1 hns
  have distinct := Plan.nodup_of_sorted sorted
  have scene := scene_of_plain sound plain hs there ho outlet mem distinct
  have whole := items.trans (items_of_routes outlet fun ns hns => (mem ns hns).ne_nil)
  rw [whole] at h
  obtain ⟨schedule, done, rfl, rfl⟩ := h.exists_run
  have course := course_of_byContents scene quiet byContents schedule
  generalize (BatchState.initial s ((routes.map (taskAt input m)).map fun v => v.item cs)).run d cwd
    schedule = b at done course
  -- the plan is the one before
  have keeps := course.overlay.keeps
  have there' := keeps _ _ there rfl
  have hs' : b.store.stat? cwd input = .ok (top, .dir mode) :=
    entryAt?_mono hs keeps (there'.trans there.symm)
  have hd' : b.store.isDir cwd input := isDir_iff.2 ⟨top, mode, hs'⟩
  have here := sound.holdsDir_cwd_eq course.overlay.sound.wellNamed fun _ => keeps.holdsDir
  have ho' := (directoryOutput_congr sound.toRooted keeps here hs there).trans ho
  have same := route_iff_of_course sound.wellNamed plain hs there ho outlet mem course hs' ho'
  have items' := Plan.items_congr sound.wellNamed course.overlay.sound.wellNamed hd hd' output same
  refine ⟨_, Plan.ofInput_of_directoryOutput hd' ho', fun u report' h' => ?_⟩
  -- and so are the tasks
  rw [items', whole] at h'
  obtain ⟨schedule', done', rfl, rfl⟩ := h'.exists_run
  have scene' := scene_of_plain course.overlay.sound (course.overlay.plain plain) hs' there' ho'
    (outlet.mono plain course.overlay.keeps) (fun ns hns => (same ns).2 (mem ns hns)) distinct
  have told : ∀ k v, (routes.map (taskAt input m))[k]? = some v →
      Chunk.isCompiled b.store cwd v.source = .ok true →
      answersOf d s (routes.map (taskAt input m)) k = (d.decompile b.store v.source).result := by
    intro k v hv compiled
    rw [Course.isCompiled_eq scene course hv] at compiled
    rw [course.answer_eq scene byContents hv compiled, answersOf, hv]
  exact course.again scene done (course_of_told scene' quiet byContents told schedule') done'

/-! ## Single files -/

/-- Converting a file beside itself once more changes nothing. -/
theorem again_of_file (sound : s.Sound cwd) (plain : s.Plain) (quiet : d.Quiet)
    (byContents : d.ByContents cwd) {plan : Plan} {report : BatchReport} (hd : ¬s.isDir cwd input)
    (planned : Plan.ofInput s cwd input = .ok plan) (h : Ends d cwd s plan.items t report) :
    ∃ plan', Plan.ofInput t cwd input = .ok plan' ∧ ∀ u report', Ends d cwd t plan'.items u report' →
      report' = report ∧ Same t u := by
  rw [Plan.ofInput, if_neg hd] at planned
  split at planned
  · next hf =>
    cases planned
    obtain ⟨loc, i, hs⟩ := isFile_iff.1 hf
    obtain ⟨front, n, dir, rfl, name, n0, before⟩ := exists_front_of_stat? sound.coherent hs
    obtain ⟨m, hm, mname, m0⟩ := exists_fileOutput before.separated name
    have apart : loc ≠ dir ++ [m] := by
      have approach := before.approach name n0
      obtain ⟨e, he⟩ := approach.exists_entry hs
      have found := approach.stat?_eq (checkText_of_stat? hs).2.2 (sound.lawful he).short he
        fun target hl => plain.no_link (hl ▸ he)
      cases hs.symm.trans found
      intro heq
      obtain rfl : n = m := by simpa using heq
      exact fileOutput_ne before.separated name hm
    obtain ⟨result, file?, settled⟩ := settled_convertItem quiet byContents before mname (m0 n0) apart hs
    -- what is there afterwards is as good as before
    have ends : ∀ {v w report}, Later s v cwd (front ++ n) loc i (dir ++ [m]) →
        Ends d cwd v (Plan.ofFile (front ++ n)).items w report →
        report = ⟨[⟨⟨front ++ n, front ++ m⟩, result⟩]⟩ ∧ Placed v w cwd (dir ++ [m]) file? := by
      intro v w report later h
      obtain ⟨store, told⟩ := h.of_singleton
      rw [hm] at store told
      obtain ⟨u, hu, placed⟩ := settled v later
      obtain ⟨hr, rfl⟩ := Prod.mk.inj hu
      rw [told, store, ← hr]
      exact ⟨rfl, placed⟩
    obtain ⟨told, placed⟩ := ends (.refl sound plain hs _) h
    have later := placed.later sound plain hs apart
    have isDir : ¬t.isDir cwd (front ++ n) := by
      rw [isDir_iff]
      rintro ⟨loc', mode, ht⟩
      cases later.stat?.symm.trans ht
    refine ⟨Plan.ofFile (front ++ n), ?_, fun u report' h' => ?_⟩
    · rw [Plan.ofInput, if_neg isDir, if_pos (isFile_iff.2 ⟨loc, i, later.stat?⟩)]
    · obtain ⟨told', placed'⟩ := ends later h'
      exact ⟨told'.trans told.symm, Overlay.again placed placed'⟩
  · cases planned

/-! ## Any input -/

/-- What converting an input may come to: it is refused, and nothing changes; or its plan is converted,
with a number of jobs or under a schedule that brings every item to its end. -/
inductive Converts (d : Decompiler) (cwd : Location) (s : Store) (input : PathText) :
    Store → Except Error BatchReport → Prop
  | refused {jobs : Nat} {e : Error} (h : convertPath d cwd jobs s input = .error e) :
      Converts d cwd s input s (.error e)
  | jobs {jobs : Nat} {plan : Plan} {b : BatchRun}
      (h : convertPath d cwd jobs s input = .ok (plan, b)) :
      Converts d cwd s input b.store (.ok b.report)
  | schedule {plan : Plan} {schedule : List Nat} (planned : Plan.ofInput s cwd input = .ok plan)
      (done : ((BatchState.initial s plan.items).run d cwd schedule).isDone) :
      Converts d cwd s input ((BatchState.initial s plan.items).run d cwd schedule).store
        (.ok ((BatchState.initial s plan.items).run d cwd schedule).report)

theorem convertPath_of_plan {plan : Plan} (planned : Plan.ofInput s cwd input = .ok plan)
    (d : Decompiler) (jobs : Nat) :
    convertPath d cwd jobs s input = .ok (plan, convertBatch d cwd jobs s plan.items) := by
  rw [convertPath, planned]
  rfl

/-- A conversion is that of a plan, or there is none. -/
theorem Converts.cases {r : Except Error BatchReport} (h : Converts d cwd s input t r) :
    (∃ e, Plan.ofInput s cwd input = .error e ∧ t = s ∧ r = .error e) ∨
      ∃ plan report, Plan.ofInput s cwd input = .ok plan ∧ Ends d cwd s plan.items t report ∧
        r = .ok report := by
  cases h with
  | @refused jobs e h =>
    cases planned : Plan.ofInput s cwd input with
    | error e' =>
      rw [convertPath, planned] at h
      cases h
      exact .inl ⟨e, rfl, rfl, rfl⟩
    | ok plan =>
      rw [convertPath_of_plan planned] at h
      cases h
  | @jobs jobs plan b h =>
    cases planned : Plan.ofInput s cwd input with
    | error e =>
      rw [convertPath, planned] at h
      cases h
    | ok plan' =>
      rw [convertPath_of_plan planned] at h
      cases h
      exact .inr ⟨plan, _, rfl, .jobs jobs, rfl⟩
  | @schedule plan schedule planned done => exact .inr ⟨plan, _, planned, .schedule done, rfl⟩

/-- In a store of directories and regular files, none of them under two names, converting an input once
more comes to the same, be it a report or the error that the input is refused with, and leaves the store as
it is. -/
theorem converts_again {r r' : Except Error BatchReport} (sound : s.Sound cwd) (plain : s.Plain)
    (quiet : d.Quiet) (byContents : d.ByContents cwd) (h : Converts d cwd s input t r)
    (h' : Converts d cwd t input u r') : r' = r ∧ Same t u := by
  rcases h.cases with ⟨e, planned, rfl, rfl⟩ | ⟨plan, report, planned, ends, rfl⟩
  · rcases h'.cases with ⟨e', planned', rfl, rfl⟩ | ⟨plan, report, planned', _, _⟩
    · cases planned.symm.trans planned'
      exact ⟨rfl, fun _ => rfl⟩
    · cases planned.symm.trans planned'
  · obtain ⟨plan', planned', again⟩ : ∃ plan', Plan.ofInput t cwd input = .ok plan' ∧
        ∀ u report', Ends d cwd t plan'.items u report' → report' = report ∧ Same t u := by
      by_cases hd : s.isDir cwd input
      · exact again_of_directory sound plain quiet byContents hd planned ends
      · exact again_of_file sound plain quiet byContents hd planned ends
    rcases h'.cases with ⟨e, refused, _, _⟩ | ⟨plan'', report', planned'', ends', rfl⟩
    · cases planned'.symm.trans refused
    · cases planned'.symm.trans planned''
      obtain ⟨rfl, same⟩ := again u report' ends'
      exact ⟨rfl, same⟩

/-- With any number of jobs, a conversion comes to something. -/
theorem exists_converts (d : Decompiler) (cwd : Location) (jobs : Nat) (s : Store) (input : PathText) :
    ∃ t r, Converts d cwd s input t r := by
  cases h : convertPath d cwd jobs s input with
  | error e => exact ⟨s, _, .refused h⟩
  | ok run => exact ⟨_, _, .jobs h⟩

/-- A tree that can be converted only in part is converted again. -/
theorem converts_again_blockedTree : blockedTree.Sound [] ∧ blockedTree.Plain ∧ ∃ plan t r,
    Plan.ofInput blockedTree [] ['i'] = .ok plan ∧
      Converts (.constant (.ok ⟨[7], [], some 0⟩)) []
        (convertBatch (.constant (.ok ⟨[7], [], some 0⟩)) [] 2 blockedTree plan.items).store ['i'] t r ∧
      r = .ok (convertBatch (.constant (.ok ⟨[7], [], some 0⟩)) [] 2 blockedTree plan.items).report ∧
      Same (convertBatch (.constant (.ok ⟨[7], [], some 0⟩)) [] 2 blockedTree plan.items).store t := by
  have dir : blockedTree.isDir [] ['i'] := by decide
  have output : Plan.directoryOutput blockedTree [] ['i'] = .ok ['i', '.', 's', 'r', 'c'] := by decide
  have planned := Plan.ofInput_of_directoryOutput dir output
  have first := Converts.jobs (convertPath_of_plan planned (.constant (.ok ⟨[7], [], some 0⟩)) 2)
  obtain ⟨t, r, second⟩ := exists_converts (.constant (.ok ⟨[7], [], some 0⟩)) [] 1
    (convertBatch (.constant (.ok ⟨[7], [], some 0⟩)) [] 2 blockedTree
      (Plan.ofDirectory blockedTree [] ['i'] ['i', '.', 's', 'r', 'c']).items).store ['i']
  refine ⟨sound_blockedTree, plain_blockedTree, _, t, r, planned, second, ?_⟩
  exact converts_again sound_blockedTree plain_blockedTree (fun _ _ => rfl)
    (fun _ _ _ _ _ _ _ _ _ _ => rfl) first second

end LuaTree

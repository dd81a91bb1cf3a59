import LuaTree.Proofs.Convert.Plain

/-!
# Failures stay with their items

What the decompiler answers about one source makes a difference to the item of that source only. Two
decompilers that differ about some sources give all other items the same results, and leave stores that
differ at most at the destinations of the former (`run_isolated`). Both come from the forecast: each item
becomes what it would have become alone in the store before, whatever the others did. It takes decompilers
that look at nothing but their source (`not_isolated_twinTree`).
-/

namespace LuaTree

open PathText Store

variable {s t t' : Store} {cwd : Location} {input : PathText} {d d' : Decompiler} {plan : Plan}
  {S : PathText → Prop} {report report' : BatchReport}

/-- What the ends of two conversions have in common: one with the decompiler `d` in the store `t`, the
other in the store `t'` with a decompiler that differs about the sources in `S`. -/
structure Isolated (s t t' : Store) (cwd : Location) (d : Decompiler) (S : PathText → Prop)
    (items : List WorkItem) (report report' : BatchReport) : Prop where
  /-- The results are those of the other conversion, but for the sources in `S`. -/
  results : ∀ (k : Nat) (item : WorkItem), items[k]? = some item → ¬S item.source →
    report.items[k]? = report'.items[k]?
  /-- So is all that is seen, but for the destinations of the sources in `S`. -/
  views : ∀ loc, (∀ item ∈ items, S item.source → ¬Designates t cwd item.destination loc) →
    t.view loc = t'.view loc
  /-- Each item has the result that it has alone in the store before. -/
  alone : report.items = items.map fun item => (convertItem d cwd s item).report

/-! ## Directories -/

theorem isolated_of_scene {cs : List Component} {a : Location} {tasks : List Task}
    (scene : Scene s cwd cs a tasks) (quiet : d.Quiet) (quiet' : d'.Quiet)
    (byContents : d.ByContents cwd) (byContents' : d'.ByContents cwd)
    (agree : ∀ u p, ¬S p → (d.decompile u p).result = (d'.decompile u p).result)
    (h : Ends d cwd s (tasks.map fun t => t.item cs) t report)
    (h' : Ends d' cwd s (tasks.map fun t => t.item cs) t' report') :
    Isolated s t t' cwd d S (tasks.map fun t => t.item cs) report report' := by
  obtain ⟨schedule, done, rfl, rfl⟩ := h.exists_run
  obtain ⟨schedule', done', rfl, rfl⟩ := h'.exists_run
  have course := course_of_byContents scene quiet byContents schedule
  have course' := course_of_byContents scene quiet' byContents' schedule'
  have same : ∀ {k u}, tasks[k]? = some u → ¬S u.source →
      answersOf d s tasks k = answersOf d' s tasks k := by
    intro k u hu hS
    rw [answersOf, answersOf, hu]
    exact agree s u.source hS
  refine ⟨fun k item hk hS => ?_, fun loc apart => ?_, List.ext_getElem? fun k => ?_⟩
  · rw [List.getElem?_map, Option.map_eq_some_iff] at hk
    obtain ⟨u, hu, rfl⟩ := hk
    rw [course.report_of_isDone done hu, course'.report_of_isDone done' hu, same hu hS]
  · refine course.view_eq done course' done' fun k u answer outcome hu hne hf hl => ?_
    -- the forecasts differ, so the answers do
    have hS : S u.source := by
      by_contra hS
      exact hne (same hu hS)
    refine apart (u.item cs) (List.mem_map_of_mem (List.mem_of_getElem? hu)) hS ?_
    rw [hl]
    exact course.designates scene hu (course.job_of_isDone done hu) (by simp [Stage.rank])
      (Task.blockage_of_forecast hf) (Task.short_of_forecast hf)
  · rw [List.getElem?_map, List.getElem?_map]
    cases hu : tasks[k]? with
    | some u =>
      rw [course.report_of_isDone done hu, Option.map_some, Option.map_some,
        convertItem_report scene quiet byContents hu]
    | none =>
      rw [BatchState.report]
      dsimp only
      rw [List.getElem?_map, course.job_of_none hu]
      rfl

/-! ## Single files -/

/-- For one item two decompilers are the same that do the same to its source. -/
theorem convertItem_eq (cwd : Location) (s : Store) (item : WorkItem)
    (same : ∀ u, (d.decompile u item.source).result = (d'.decompile u item.source).result ∧
      (d.decompile u item.source).store = (d'.decompile u item.source).store) :
    (convertItem d cwd s item).report = (convertItem d' cwd s item).report ∧
      (convertItem d cwd s item).store = (convertItem d' cwd s item).store := by
  have begun : ItemState.Alike (.initial s) (.initial s) := ⟨rfl, rfl⟩
  obtain ⟨stage, store⟩ := begun.steps cwd same ItemState.stageCount
  refine ⟨?_, store⟩
  rw [convertItem, convertItem, ItemState.result?, ItemState.result?, stage]

/-- A store of directories and files without other names is changed at the output of a file only. -/
theorem framed_of_file (sound : s.Sound cwd) (plain : s.Plain) (quiet : d.Quiet)
    (hd : ¬s.isDir cwd input) (hf : s.isFile cwd input)
    (h : Ends d cwd s (Plan.ofFile input).items t report) :
    Framed s t cwd ((Plan.ofFile input).Covers s cwd) ((Plan.ofFile input).items.map (·.destination)) := by
  have planned : Plan.ofInput s cwd input = .ok (Plan.ofFile input) := by
    rw [Plan.ofInput, if_neg hd, if_pos hf]
  obtain ⟨schedule, _, rfl, _⟩ := h.exists_run
  refine Framed.run quiet (fun framed => confined_of_ofInput sound planned framed) ?_
    (BatchState.items_initial s _) schedule
  refine .refl sound (fun _ _ _ => plain.no_link) fun l l' i hl hl' he he' => ?_
  exact hl' (plain.single he he' ▸ hl)

theorem isolated_of_file (sound : s.Sound cwd) (plain : s.Plain) (quiet : d.Quiet) (quiet' : d'.Quiet)
    (agree : ∀ u p, ¬S p → (d.decompile u p).result = (d'.decompile u p).result)
    (hd : ¬s.isDir cwd input) (hf : s.isFile cwd input)
    (h : Ends d cwd s (Plan.ofFile input).items t report)
    (h' : Ends d' cwd s (Plan.ofFile input).items t' report') :
    Isolated s t t' cwd d S (Plan.ofFile input).items report report' := by
  have framed := framed_of_file sound plain quiet hd hf h
  have framed' := framed_of_file sound plain quiet' hd hf h'
  obtain ⟨store, told⟩ := h.of_singleton
  obtain ⟨store', told'⟩ := h'.of_singleton
  have same (hS : ¬S input) := convertItem_eq cwd s ⟨input, fileOutput input⟩ fun u =>
    ⟨agree u input hS, (quiet u input).trans (quiet' u input).symm⟩
  refine ⟨fun k item hk hS => ?_, fun loc apart => ?_, congrArg BatchReport.items told⟩
  · obtain rfl := List.mem_singleton.1 (List.mem_of_getElem? hk)
    rw [told, told', (same hS).1]
  · by_cases hS : S input
    · -- the only destination is one that may differ
      have outside : ¬(Plan.ofFile input).Covers s cwd loc := by
        rintro ⟨root, hr, he⟩
        obtain rfl : loc = root := he
        exact apart _ List.mem_cons_self hS (hr.mono framed.keeps)
      rw [framed.view outside, framed'.view outside]
    · rw [store, store', (same hS).2]

/-! ## Any plan -/

/-- In a store of directories and regular files, none of them under two names, conversions of one plan
with two decompilers that differ about the sources in `S` only give all other items the same results,
and differ in nothing but the destinations of the items from `S`. Each item comes to what it comes to
alone. -/
theorem run_isolated (sound : s.Sound cwd) (plain : s.Plain) (quiet : d.Quiet) (quiet' : d'.Quiet)
    (byContents : d.ByContents cwd) (byContents' : d'.ByContents cwd)
    (agree : ∀ u p, ¬S p → (d.decompile u p).result = (d'.decompile u p).result)
    (planned : Plan.ofInput s cwd input = .ok plan) (h : Ends d cwd s plan.items t report)
    (h' : Ends d' cwd s plan.items t' report') :
    Isolated s t t' cwd d S plan.items report report' := by
  by_cases hd : s.isDir cwd input
  · obtain ⟨top, mode, hs⟩ := isDir_iff.1 hd
    rcases Plan.stranded_or_planned hd with ⟨cause, stranded⟩ | ⟨output, ho, made⟩
    · cases (Plan.ofInput_of_stranded stranded).symm.trans planned
    cases made.symm.trans planned
    obtain ⟨there, cs, dir, m, outlet⟩ := outlet_of_directoryOutput sound.wellNamed hs ho
    obtain ⟨routes, items, mem, sorted⟩ := Plan.items_ofDirectory sound.wellNamed hd output
    have mem : ∀ ns ∈ routes, Walk.Route s cwd input output ns := fun ns hns => (mem ns).1 hns
    have scene := scene_of_plain sound plain hs there ho outlet mem (Plan.nodup_of_sorted sorted)
    rw [items, items_of_routes outlet fun ns hns => (mem ns hns).ne_nil] at h h' ⊢
    exact isolated_of_scene scene quiet quiet' byContents byContents' agree h h'
  · rw [Plan.ofInput, if_neg hd] at planned
    split at planned
    · next hf =>
      cases planned
      exact isolated_of_file sound plain quiet quiet' agree hd hf h h'
    · cases planned

/-- The decompiler that fails for one source and gives one answer about all others. -/
def Decompiler.failingFor (source : PathText) (e : Error) (answer : Except Error ProcessOutput) :
    Decompiler :=
  ⟨fun s p => { result := if p = source then .error e else answer, store := s }⟩

/-- Whether the compiled chunk of a tree can be decompiled makes no difference to the other file. -/
theorem run_isolated_blockedTree : blockedTree.Sound [] ∧ blockedTree.Plain ∧
    ∃ plan, Plan.ofInput blockedTree [] ['i'] = .ok plan ∧
      Isolated blockedTree
        (convertBatch (.constant (.ok ⟨[7], [], some 0⟩)) [] 1 blockedTree plan.items).store
        (convertBatch (.failingFor "i/a".toList default (.ok ⟨[7], [], some 0⟩)) [] 2 blockedTree
          plan.items).store
        [] (.constant (.ok ⟨[7], [], some 0⟩)) (· = "i/a".toList) plan.items
        (convertBatch (.constant (.ok ⟨[7], [], some 0⟩)) [] 1 blockedTree plan.items).report
        (convertBatch (.failingFor "i/a".toList default (.ok ⟨[7], [], some 0⟩)) [] 2 blockedTree
          plan.items).report := by
  have dir : blockedTree.isDir [] ['i'] := by decide
  have output : Plan.directoryOutput blockedTree [] ['i'] = .ok ['i', '.', 's', 'r', 'c'] := by decide
  have planned := Plan.ofInput_of_directoryOutput dir output
  refine ⟨sound_blockedTree, plain_blockedTree, _, planned, ?_⟩
  exact run_isolated sound_blockedTree plain_blockedTree (fun _ _ => rfl) (fun _ _ => rfl)
    (fun _ _ _ _ _ _ _ _ _ _ => rfl) (fun _ _ _ _ _ _ _ _ _ _ => rfl)
    (fun _ _ hp => (if_neg hp).symm) planned (.jobs 1) (.jobs 2)

/-- A directory with two compiled chunks. -/
def twinTree : Store :=
  ((Store.empty.put [['i']] (.dir 0o755)).putFile [['i'], ['a']] ⟨27 :: Chunk.magic, 0o644⟩).putFile
    [['i'], ['b']] ⟨27 :: Chunk.magic, 0o644⟩

theorem items_twinTree : (Plan.ofDirectory twinTree [] ['i'] "i.src".toList).items =
    [⟨"i/a".toList, "i.src/a".toList⟩, ⟨"i/b".toList, "i.src/b".toList⟩] := by
  have stat : twinTree.stat? [] ['i'] = .ok ([['i']], .dir 0o755) := by decide
  have held : (twinTree.tree.sub [['i']]).names = [['a'], ['b']] := by decide
  -- the names are sorted by a recursion that does not compute
  have names : twinTree.names [['i']] = [['a'], ['b']] := by
    rw [Store.names, held, List.mergeSort_of_pairwise (by decide)]
  have listed : twinTree.list? [] ['i'] = .ok [['a'], ['b']] := by
    rw [← names, list?, stat]
    rfl
  have found : Walk.findings twinTree [] ['i'] "i.src".toList =
      [.file "i/a".toList, .file "i/b".toList] := by
    have depth : Walk.depthLimit twinTree = 8 + 1 := by decide
    have free : (twinTree.canonical? [] "i.src".toList).toOption = none := by decide
    rw [Walk.findings, stat, free, depth]
    dsimp only
    rw [Walk.findingsWithin, listed]
    decide +kernel
  rw [Plan.ofDirectory, found]
  decide +kernel

/-- The decompiler that has one answer about the first of two chunks, and about every other source looks
for what became of that one. -/
def Decompiler.watching (first : Except Error ProcessOutput) : Decompiler :=
  ⟨fun s p =>
    { result :=
        if p = "i/a".toList then first
        else .ok ⟨[], [], some (if s.isFile [] "i.src/a".toList then 1 else 0)⟩
      store := s }⟩

/-- A decompiler that looks at more than its source carries a failure over from one item to the next. The
two decompilers differ about the first source only; what they say of the second depends on whether the first
was converted, and in the run it is not what it is of that item alone. -/
theorem not_isolated_twinTree : twinTree.Sound [] ∧ twinTree.Plain ∧
    let d := Decompiler.watching (.ok ⟨[7], [], some 0⟩)
    let d' := Decompiler.watching (.error default)
    d.Quiet ∧ d'.Quiet ∧
    (∀ u p, p ≠ "i/a".toList → (d.decompile u p).result = (d'.decompile u p).result) ∧
    ∃ plan item, Plan.ofInput twinTree [] ['i'] = .ok plan ∧ plan.items[1]? = some item ∧
      item.source ≠ "i/a".toList ∧
      (convertBatch d [] 1 twinTree plan.items).report.items[1]? ≠
        (convertBatch d' [] 1 twinTree plan.items).report.items[1]? ∧
      (convertBatch d [] 1 twinTree plan.items).report.items[1]? ≠
        some (convertItem d [] twinTree item).report := by
  have sound : twinTree.Sound [] := .of_admits (by decide) (by decide) (by decide)
  have kinds : ∀ x ∈ twinTree.tree.entries, x.2.isDir ∨ x.2.isFile := by decide
  have single : ∀ x ∈ twinTree.tree.entries, ∀ y ∈ twinTree.tree.entries,
      x.2.isFile → x.2 = y.2 → x.1 = y.1 := by decide
  have dir : twinTree.isDir [] ['i'] := by decide
  have output : Plan.directoryOutput twinTree [] ['i'] = .ok "i.src".toList := by decide
  refine ⟨sound, ⟨fun he => kinds _ (Tree.mem_entries he),
    fun he he' => single _ (Tree.mem_entries he) _ (Tree.mem_entries he') rfl rfl⟩,
    fun _ _ => rfl, fun _ _ => rfl, fun u p hp => ?_, _, ⟨"i/b".toList, "i.src/b".toList⟩,
    Plan.ofInput_of_directoryOutput dir output, ?_, by decide, fun same => ?_, fun same => ?_⟩
  · unfold Decompiler.watching
    dsimp only
    rw [if_neg hp, if_neg hp]
  · rw [items_twinTree]
    rfl
  · rw [items_twinTree] at same
    have outcome := congrArg (Option.map fun r => r.result.isOk) same
    revert outcome
    decide +kernel
  · rw [items_twinTree] at same
    have outcome := congrArg (Option.map fun r => r.result.isOk) same
    revert outcome
    decide +kernel

end LuaTree

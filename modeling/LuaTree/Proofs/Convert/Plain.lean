import LuaTree.Proofs.Convert.Tasks

/-!
# Directories and regular files only

In a store of directories and regular files, none of them under two names, the routes of a walk are the
files that are not in the output directory (`Plain.route_iff`). So no source is where something is written
(`source_not_below_output`), and the items of any plan for a directory are tasks of one scene
(`scene_of_plain`). What a conversion lays over such a store makes it another one (`Overlay.plain`).

A decompiler that goes by the path and the contents of the source answers about an item what it would
have answered in the store before (`course_of_byContents`). So converting an item in the course of a
batch and converting it alone come to the same result (`convertItem_report`).
-/

namespace LuaTree

open PathText Store

variable {s : Store} {cwd : Location} {input : PathText} {d : Decompiler}

/-- A decompiler whose answer depends on the path and the contents of the source only. -/
def Decompiler.ByContents (d : Decompiler) (cwd : Location) : Prop :=
  ∀ (s t : Store) (p : PathText) (a b : Location) (i j : Nat), s.stat? cwd p = .ok (a, .file i) →
    t.stat? cwd p = .ok (b, .file j) → (s.inode i).data = (t.inode j).data →
    (d.decompile s p).result = (d.decompile t p).result

/-- A store of directories and regular files, none of them under two names. -/
structure Store.Plain (s : Store) : Prop where
  kinds : ∀ {l e}, s.entry? l = some e → e.isDir ∨ e.isFile
  single : ∀ {l l' i}, s.entry? l = some (.file i) → s.entry? l' = some (.file i) → l = l'

theorem Store.Plain.no_link (h : s.Plain) {l : Location} {target : PathText} :
    s.entry? l ≠ some (.link target) := by
  intro he
  rcases h.kinds he with hd | hf
  · cases hd
  · cases hf

/-- What is laid over a store of directories and regular files makes it another one. -/
theorem Store.Overlay.plain {u : Store} {made : Location → Prop} {finished : Location → Inode → Prop}
    (h : Overlay s u cwd made finished) (plain : s.Plain) : u.Plain := by
  have kinds : ∀ {l e}, u.entry? l = some e → e.isDir ∨ e.isFile := by
    intro l e he
    by_cases hl : ∃ f, finished l f
    · obtain ⟨f, hl⟩ := hl
      obtain ⟨i, hi, _⟩ := h.file hl
      cases he.symm.trans hi
      exact .inr rfl
    · rw [not_exists] at hl
      rcases h.entry_cases hl with hs | ⟨_, hd⟩
      · exact plain.kinds (hs.symm.trans he)
      · cases he.symm.trans hd
        exact .inl rfl
  refine ⟨kinds, fun {l l' i} he he' => ?_⟩
  by_cases hl : ∃ f, finished l f
  · obtain ⟨f, hl⟩ := hl
    obtain ⟨j, hj, _, alone⟩ := h.file hl
    cases he.symm.trans hj
    exact (alone l' he').symm
  · rw [not_exists] at hl
    exact (h.lone hl he (fun hs l'' hs' => plain.single hs' hs) l' he').symm

theorem Outlet.mono {t : Store} {top dir : Location} {output : PathText} {cs : List Component} {m : Name}
    (outlet : Outlet s cwd top output cs dir m) (plain : s.Plain) (hk : Keeps s t) :
    Outlet t cwd top output cs dir m := by
  obtain ⟨base, name, nul, text, beside⟩ := outlet
  refine ⟨base.mono hk, name, nul, text, beside.imp_right ?_⟩
  rintro ⟨n, hnm, ht | ⟨target, hl⟩⟩
  · exact ⟨n, hnm, .inl ht⟩
  · exact absurd hl plain.no_link

/-- What is not in the output directory is not below it. -/
theorem not_below_output (plain : s.Plain) {top dir : Location} {output : PathText} {cs : List Component}
    {m : Name} (outlet : Outlet s cwd top output cs dir m) {ns ks : List Name} (hne : ks ≠ [])
    (aside : ∀ j < ns.length, top ++ ns.take j ≠ dir ++ [m]) : top ++ ns ≠ dir ++ m :: ks := by
  intro heq
  rcases outlet.beside with ⟨rfl, rfl⟩ | ⟨n, hnm, rfl | ⟨target, hl⟩⟩
  · -- the output is a directory of the input
    rw [List.nil_append, List.nil_append] at heq
    subst heq
    exact aside 1 (Nat.succ_lt_succ (List.length_pos_iff.2 hne)) rfl
  · rw [List.append_assoc, List.append_cancel_left_eq] at heq
    exact hnm (List.cons.inj heq).1
  · exact plain.no_link hl

/-- Only a path that is written out as the root leads there, if no links are. -/
theorem Store.Plain.output_of_root (plain : s.Plain) (wellNamed : s.WellNamed) {mode : Nat}
    {output : PathText} (h : s.stat? cwd input = .ok ([], .dir mode))
    (ho : Plan.directoryOutput s cwd input = .ok output) :
    s.canonical? cwd input = .ok (Location.text []) ∧ output = "/.src".toList := by
  cases hn : finalName? input with
  | some n =>
    obtain ⟨cs, hc⟩ := finalName?_eq_some.1 hn
    obtain ⟨dir, _, hroot | ⟨target, hl⟩⟩ := outlet_of_name wellNamed h hc
    · exact absurd hroot.symm (List.concat_ne_nil n dir)
    · exact absurd hl plain.no_link
  | none =>
    rw [Plan.directoryOutput_of_nameless s cwd hn] at ho
    cases hc : s.canonical? cwd input with
    | error cause =>
      rw [hc] at ho
      cases ho
    | ok place =>
      rw [hc] at ho
      obtain ⟨_, rfl, _⟩ := wellNamed.entry_of_canonical? hc h
      cases ho
      exact ⟨rfl, by decide⟩

/-- A route keeps out of the output directory. -/
theorem Store.Plain.aside (plain : s.Plain) (wellNamed : s.WellNamed) {mode : Nat} {top dir : Location}
    {output : PathText} {cs : List Component} {m : Name} (h : s.stat? cwd input = .ok (top, .dir mode))
    (there : s.entry? top = some (.dir mode)) (ho : Plan.directoryOutput s cwd input = .ok output)
    (outlet : Outlet s cwd top output cs dir m) {ns : List Name} (route : Walk.Route s cwd input output ns) :
    ∀ j < ns.length, top ++ ns.take j ≠ dir ++ [m] := by
  intro j hj heq
  rcases outlet.beside with ⟨rfl, rfl⟩ | ⟨n, hnm, rfl | ⟨target, hl⟩⟩
  · -- the output directory of the root is in it, and that is where the route would go
    obtain ⟨root, rfl⟩ := plain.output_of_root wellNamed h ho
    have hm : m = directorySuffix := by
      have last := finalName?_ofComponents (outlet.base.normal.snoc (.name outlet.name))
      rw [← outlet.text] at last
      exact Option.some.inj (last.symm.trans (by decide))
    subst hm
    have links : Walk.Unlinked s [] := fun _ _ => plain.no_link
    obtain ⟨i, he⟩ := route.entry wellNamed h there links
    obtain ⟨mode', hd⟩ := Walk.exists_dir_above wellNamed.toRooted he hj
    have hd : s.entry? ([] ++ [directorySuffix]) = some (.dir mode') := by rwa [← heq]
    have written : ∀ p : PathText, s.canonical? cwd p = .ok (Location.text []) →
        s.canonical? cwd (join p directorySuffix) = .ok (Location.text [directorySuffix]) := fun p hp =>
      wellNamed.canonical?_join hp (fun _ hn => absurd hn List.not_mem_nil) hd (by decide)
    have output : s.canonical? cwd "/.src".toList = .ok (Location.text [directorySuffix]) := by
      refine written ['/'] (canonical?_eq_ok.2 ⟨by decide, by decide, .inl rfl, [], ?_, rfl⟩)
      exact (s.resolve_slash linkLimit [] []).trans (s.resolve_nil linkLimit [])
    refine route.outside j hj _ output ?_
    have names : ns.take j = [directorySuffix] := heq
    rw [names]
    exact written input root
  · rw [List.append_assoc, List.append_cancel_left_eq] at heq
    exact hnm (List.cons.inj heq).1
  · exact plain.no_link hl

/-- The routes of a walk are the files of the tree that are not in the output directory. -/
theorem Store.Plain.route_iff (plain : s.Plain) (wellNamed : s.WellNamed) {mode : Nat} {top dir : Location}
    {output : PathText} {cs : List Component} {m : Name} (h : s.stat? cwd input = .ok (top, .dir mode))
    (there : s.entry? top = some (.dir mode)) (ho : Plan.directoryOutput s cwd input = .ok output)
    (outlet : Outlet s cwd top output cs dir m) {ns : List Name} :
    Walk.Route s cwd input output ns ↔ (∃ i, s.entry? (top ++ ns) = some (.file i)) ∧
      Utf8.byteLength (joinAll input ns.dropLast) < pathLimit ∧
      ∀ j < ns.length, top ++ ns.take j ≠ dir ++ [m] := by
  have links : Walk.Unlinked s top := fun _ _ => plain.no_link
  constructor
  · intro route
    obtain ⟨file, hl, _⟩ := (Walk.route_iff wellNamed h there links).1 route
    exact ⟨file, hl, plain.aside wellNamed h there ho outlet route⟩
  · rintro ⟨⟨i, he⟩, hl, aside⟩
    refine (Walk.route_iff wellNamed h there links).2 ⟨⟨i, he⟩, hl, fun j hj place hc hc' => ?_⟩
    obtain ⟨rfl, names, _⟩ := outlet.of_canonical? wellNamed (fun _ => plain.no_link) hc
    obtain ⟨mode', hs⟩ := Walk.exists_stat?_take wellNamed h there links he hl hj
    obtain ⟨_, same, lawful⟩ := wellNamed.entry_of_canonical? hc' hs
    exact aside j hj (text_injective names (fun n hn => (lawful n hn).toIsName) same).symm

/-- No source is where something is written. -/
theorem source_not_below_output (plain : s.Plain) (wellNamed : s.WellNamed) {mode : Nat}
    {top dir : Location} {output : PathText} {cs : List Component} {m : Name}
    (h : s.stat? cwd input = .ok (top, .dir mode)) (there : s.entry? top = some (.dir mode))
    (ho : Plan.directoryOutput s cwd input = .ok output) (outlet : Outlet s cwd top output cs dir m)
    {ns ks : List Name} (route : Walk.Route s cwd input output ns) (hne : ks ≠ []) :
    top ++ ns ≠ dir ++ m :: ks :=
  not_below_output plain outlet hne (plain.aside wellNamed h there ho outlet route)

/-- The items of a plan for a directory are the tasks of a scene. -/
theorem scene_of_plain (sound : s.Sound cwd) (plain : s.Plain) {mode : Nat} {top dir : Location}
    {output : PathText} {cs : List Component} {m : Name}
    (h : s.stat? cwd input = .ok (top, .dir mode)) (there : s.entry? top = some (.dir mode))
    (ho : Plan.directoryOutput s cwd input = .ok output) (outlet : Outlet s cwd top output cs dir m)
    {routes : List (List Name)} (mem : ∀ ns ∈ routes, Walk.Route s cwd input output ns)
    (distinct : routes.Nodup) : Scene s cwd cs dir (routes.map (taskAt input m)) := by
  refine scene_of_outlet sound h there (fun _ _ => plain.no_link) outlet mem distinct (fun ns e he => ?_)
    fun ns hns ks hks _ => source_not_below_output plain sound.wellNamed h there ho outlet (mem ns hns)
      (mem ks hks).ne_nil
  rcases plain.kinds he with hdir | hfile
  · exact .inl hdir
  · cases e with
    | file i => exact .inr ⟨i, rfl, fun l hl => plain.single hl he⟩
    | dir _ | link _ | fifo | device _ => cases hfile

/-- What a decompiler that goes by contents answers about the tasks of a batch. -/
def answersOf (d : Decompiler) (s : Store) (tasks : List Task) (k : Nat) : Except Error ProcessOutput :=
  match tasks[k]? with
  | some t => (d.decompile s t.source).result
  | none => .error default

/-- About a source the decompiler answers what it would have answered before. -/
theorem Course.answer_eq {cs : List Component} {a : Location} {tasks : List Task}
    {answers : Nat → Except Error ProcessOutput} {b : BatchState} (scene : Scene s cwd cs a tasks)
    (byContents : d.ByContents cwd) (course : Course s cwd cs a tasks answers b) {k : Nat} {t : Task}
    (ht : tasks[k]? = some t) (compiled : Chunk.isCompiled s cwd t.source = .ok true) :
    (d.decompile b.store t.source).result = (d.decompile s t.source).result := by
  rcases scene.source (List.mem_of_getElem? ht) with ⟨cause, he⟩ | ⟨loc, i, hs, apart⟩
  · rw [isCompiled_of_checkText he] at compiled
    cases compiled
  · obtain ⟨hu, hi⟩ := course.overlay.stat?_eq hs (course.source_clear apart)
    exact byContents _ _ _ _ _ _ _ hu hs (by rw [hi])

/-- Under any schedule the items become what is forecast from the answers about the sources in the store
before. -/
theorem course_of_told {cs : List Component} {a : Location} {tasks : List Task}
    {answers : Nat → Except Error ProcessOutput} (scene : Scene s cwd cs a tasks) (quiet : d.Quiet)
    (byContents : d.ByContents cwd)
    (told : ∀ k t, tasks[k]? = some t → Chunk.isCompiled s cwd t.source = .ok true →
      answers k = (d.decompile s t.source).result) (schedule : List Nat) :
    Course s cwd cs a tasks answers
      ((BatchState.initial s (tasks.map fun t => t.item cs)).run d cwd schedule) := by
  refine Course.run scene quiet schedule (.initial scene) fun before k after t _ ht hk course => ?_
  obtain ⟨_, hc⟩ : t.blockage s cs a = none ∧ Chunk.isCompiled s cwd t.source = .ok true :=
    course.due ht hk
  rw [course.answer_eq scene byContents ht hc, told k t ht hc]

theorem course_of_byContents {cs : List Component} {a : Location} {tasks : List Task}
    (scene : Scene s cwd cs a tasks) (quiet : d.Quiet) (byContents : d.ByContents cwd)
    (schedule : List Nat) :
    Course s cwd cs a tasks (answersOf d s tasks)
      ((BatchState.initial s (tasks.map fun t => t.item cs)).run d cwd schedule) := by
  refine course_of_told scene quiet byContents (fun k t ht _ => ?_) schedule
  rw [answersOf, ht]

/-- Each task of a scene is a scene of its own. -/
theorem Scene.single {cs : List Component} {a : Location} {tasks : List Task}
    (scene : Scene s cwd cs a tasks) {t : Task} (ht : t ∈ tasks) : Scene s cwd cs a [t] := by
  have same : ∀ {u : Task}, u ∈ [t] → u = t := fun hu => List.mem_singleton.1 hu
  have mem : ∀ {u : Task}, u ∈ [t] → u ∈ tasks := fun hu => same hu ▸ ht
  refine ⟨scene.sound, scene.base, fun hu => scene.names (mem hu), fun hu => scene.no_nul (mem hu),
    fun hu => scene.short (mem hu), fun hu => scene.way_ne_nil (mem hu),
    fun hu => scene.plain (mem hu), fun {j k u v} hu hv _ => ?_, fun hu => ?_⟩
  · obtain ⟨hj, _⟩ := List.getElem?_eq_some_iff.1 hu
    obtain ⟨hk, _⟩ := List.getElem?_eq_some_iff.1 hv
    rw [List.length_singleton, Nat.lt_one_iff] at hj hk
    rw [hj, hk]
  · exact (scene.source (mem hu)).imp_right fun ⟨loc, i, hs, apart⟩ =>
      ⟨loc, i, hs, fun v hv => apart v (mem hv)⟩

/-- An item that is converted alone becomes what is forecast. -/
theorem convertItem_report {cs : List Component} {a : Location} {tasks : List Task}
    (scene : Scene s cwd cs a tasks) (quiet : d.Quiet) (byContents : d.ByContents cwd) {k : Nat} {t : Task}
    (ht : tasks[k]? = some t) : (convertItem d cwd s (t.item cs)).report =
      ⟨t.item cs, t.forecast s cwd cs a (answersOf d s tasks k)⟩ := by
  have alone := scene.single (List.mem_of_getElem? ht)
  have answer : answersOf d s [t] 0 = answersOf d s tasks k := by rw [answersOf, answersOf, ht]; rfl
  obtain ⟨_, report, done⟩ := BatchState.run_sequential d cwd 1 s [t.item cs]
  have course : Course s cwd cs a [t] (answersOf d s [t])
      ((BatchState.initial s [t.item cs]).run d cwd (BatchState.sequential [t.item cs].length)) :=
    course_of_byContents alone quiet byContents _
  have told := course.report_of_isDone done List.getElem?_cons_zero
  rw [report, answer] at told
  exact Option.some.inj told

/-- A compiled chunk and another file, with an earlier output in the way of the latter. -/
def blockedTree : Store :=
  (((((Store.empty.put [['i']] (.dir 0o755)).putFile [['i'], ['a']] ⟨27 :: Chunk.magic, 0o644⟩).put
    [['i'], ['d']] (.dir 0o755)).putFile [['i'], ['d'], ['f']] ⟨[7], 0o600⟩).put
    [['i', '.', 's', 'r', 'c']] (.dir 0o755)).putFile [['i', '.', 's', 'r', 'c'], ['d']] ⟨[1], 0o644⟩

theorem sound_blockedTree : blockedTree.Sound [] := .of_admits (by decide) (by decide) (by decide)

theorem plain_blockedTree : blockedTree.Plain := by
  have kinds : ∀ x ∈ blockedTree.tree.entries, x.2.isDir ∨ x.2.isFile := by decide
  have single : ∀ x ∈ blockedTree.tree.entries, ∀ y ∈ blockedTree.tree.entries,
      x.2.isFile → x.2 = y.2 → x.1 = y.1 := by decide
  exact ⟨fun he => kinds _ (Tree.mem_entries he),
    fun he he' => single _ (Tree.mem_entries he) _ (Tree.mem_entries he') rfl rfl⟩

end LuaTree

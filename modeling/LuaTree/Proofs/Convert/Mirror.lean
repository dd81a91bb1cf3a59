import LuaTree.Proofs.Convert.Tasks

/-!
# The output is a mirror of the input

For an input directory without links and with nothing where its output goes, `Mirrored` says what
belongs below the output directory: a copy of every file that is no compiled chunk, the text of every
chunk that the decompiler was successful with, and the directories above the files of the tree.
`convertPath_mirrors` says that this is what a conversion leaves there, no more and no less, and that
nothing changes anywhere else. The text of a chunk goes through a temporary file, which is named by its path
from the root; where there is none to be made out, the text is not written (`text_missing_chunkDirectory`).
-/

namespace LuaTree

open PathText Store

variable {s t : Store} {cwd top root : Location} {input output : PathText}
  {told : List Name → Except Error ProcessOutput → Prop}

/-- What belongs below the output directory of the tree at `top`, when this is what the decompiler said
about its files. -/
inductive Mirrored (s : Store) (top : Location)
    (told : List Name → Except Error ProcessOutput → Prop) : List Name → View → Prop
  /-- A file that is no compiled chunk, with its mode. -/
  | copy {ns : List Name} {data : Bytes} {mode : Nat}
      (file : s.view (top ++ ns) = some (.file data mode)) (plain : ¬Chunk.hasHeader data) :
      Mirrored s top told ns (.file data mode)
  /-- The text of a compiled chunk. -/
  | text {ns : List Name} {data : Bytes} {mode : Nat} {answer : ProcessOutput}
      (file : s.view (top ++ ns) = some (.file data mode)) (compiled : Chunk.hasHeader data)
      (said : told ns (.ok answer)) (success : answer.success) :
      Mirrored s top told ns (.file answer.stdout (s.masked 0o666))
  /-- A directory with a file somewhere below it, whatever became of that. -/
  | directory {ns more : List Name} {data : Bytes} {mode : Nat} (below : more ≠ [])
      (file : s.view (top ++ (ns ++ more)) = some (.file data mode)) :
      Mirrored s top told ns (.dir (s.masked 0o777))

/-- The store `t` is `s` with the mirror of the tree at `top` below `root`. -/
structure Mirrors (s t : Store) (top root : Location)
    (told : List Name → Except Error ProcessOutput → Prop) : Prop where
  outside : ∀ loc, ¬root <+: loc → t.view loc = s.view loc
  inside : ∀ ns v, t.view (root ++ ns) = some v ↔ Mirrored s top told ns v
  /-- About every compiled chunk the decompiler was asked, once. -/
  asked : ∀ ns data mode, s.view (top ++ ns) = some (.file data mode) → Chunk.hasHeader data →
    ∃! answer, told ns answer

/-- In the course of a schedule the decompiler gave this answer about the file at these names. -/
def Told (d : Decompiler) (cwd : Location) (s : Store) (input : PathText) (plan : Plan)
    (schedule : List Nat) (ns : List Name) (answer : Except Error ProcessOutput) : Prop :=
  ∃ k, plan.items[k]? = some (Plan.itemAt input plan.outputRoot ns) ∧
    BatchState.Answered d cwd (.initial s plan.items) schedule k answer

/-- No path that a conversion needs for the files of a tree is too long, and the temporary file for what the
decompiler says about a chunk can be named. -/
structure Fits (s : Store) (cwd top : Location) (input output : PathText) : Prop where
  source : ∀ {ns data mode}, s.view (top ++ ns) = some (.file data mode) →
    Utf8.byteLength (joinAll input ns) < pathLimit
  destination : ∀ {ns data mode}, s.view (top ++ ns) = some (.file data mode) →
    Utf8.byteLength (joinAll output ns) < pathLimit
  scratch : ∀ {ns data mode}, s.view (top ++ ns) = some (.file data mode) → Chunk.hasHeader data →
    (isAbsolute output = true ∨ s.holdsDir cwd) ∧
      Utf8.byteLength (scratchText cwd (joinAll output ns)) < pathLimit

/-! ## Files of a tree with a fresh output -/

/-- An input directory without links, with nothing where its output goes. -/
structure Fresh (s : Store) (cwd top : Location) (input output : PathText) (cs : List Component)
    (dir : Location) (m : Name) : Prop where
  sound : s.Sound cwd
  leads : ∃ mode, s.stat? cwd input = .ok (top, .dir mode) ∧ s.entry? top = some (.dir mode)
  links : Walk.Unlinked s top
  outlet : Outlet s cwd top output cs dir m
  short : Utf8.byteLength m ≤ nameLimit
  vacant : s.entry? (dir ++ [m]) = none
  fits : Fits s cwd top input output

namespace Fresh

variable {cs : List Component} {dir : Location} {m : Name} {ns : List Name} {data : Bytes} {mode : Nat}
  (h : Fresh s cwd top input output cs dir m)

include h

theorem entry?_below (ns : List Name) : s.entry? (dir ++ m :: ns) = none := by
  rw [List.append_cons]
  exact h.sound.nothing_below h.vacant ns

/-- There is nothing to leave out of the walk. -/
theorem canonical?_ne (place : PathText) : s.canonical? cwd output ≠ .ok place := by
  intro hc
  have link : ∀ target, s.entry? (dir ++ [m]) ≠ some (.link target) := by
    intro target he
    cases h.vacant.symm.trans he
  obtain ⟨_, _, _, he⟩ := h.outlet.of_canonical? h.sound.wellNamed link hc
  cases h.vacant.symm.trans he

/-- The routes of the walk are the files of the tree. -/
theorem route_iff : Walk.Route s cwd input output ns ↔
    ∃ data mode, s.view (top ++ ns) = some (.file data mode) := by
  obtain ⟨mode', leads, there⟩ := h.leads
  constructor
  · intro route
    obtain ⟨i, he⟩ := route.entry h.sound.wellNamed leads there h.links
    exact ⟨_, _, view_eq_file.2 ⟨i, he, rfl⟩⟩
  · rintro ⟨data, mode, file⟩
    obtain ⟨i, he, _⟩ := view_eq_file.1 file
    refine Walk.route_of_entry h.sound.wellNamed leads there h.links
      (fun _ _ place hc => absurd hc (h.canonical?_ne place)) he ?_
    refine Nat.lt_of_le_of_lt (byteLength_joinAll_mono input (List.dropLast_prefix ns) fun n hn => ?_)
      (h.fits.source file)
    exact (h.sound.lawful_of_mem he n hn).toIsName

/-- A plan's items for the tree are the tasks of a scene. -/
theorem scene {routes : List (List Name)} (mem : ∀ ns ∈ routes, Walk.Route s cwd input output ns)
    (distinct : routes.Nodup) : Scene s cwd cs dir (routes.map (taskAt input m)) := by
  obtain ⟨mode', leads, there⟩ := h.leads
  refine scene_of_outlet h.sound leads there h.links h.outlet mem distinct (fun ks e he => ?_) ?_
  · cases (h.entry?_below ks).symm.trans he
  · intro ns hns ks _ _ same
    obtain ⟨i, he⟩ := (mem ns hns).entry h.sound.wellNamed leads there h.links
    rw [same, h.entry?_below ks] at he
    cases he

variable (file : s.view (top ++ ns) = some (.file data mode))

include file

theorem ne_nil : ns ≠ [] := ((h.route_iff).2 ⟨data, mode, file⟩).ne_nil

/-- Nothing keeps one from creating the directories above a destination. -/
theorem blockage_eq_none : (taskAt input m ns).blockage s cs dir = none := by
  have route := h.route_iff.2 ⟨data, mode, file⟩
  have names : ∀ n ∈ ns, Lawful n := route.lawful h.sound.wellNamed
  have inner : ∀ n ∈ ns.dropLast, n ∈ ns := fun n hn => (List.dropLast_sublist ns).subset hn
  have short : Utf8.byteLength (below cs (m :: ns.dropLast)) < pathLimit := by
    refine Nat.lt_of_le_of_lt ?_ (h.fits.destination file)
    rw [← joinAll_outlet h.outlet]
    conv_rhs => rw [← List.dropLast_append_getLast route.ne_nil, joinAll_append]
    refine byteLength_le_joinAll _ fun n hn => ?_
    rw [List.mem_singleton.1 hn]
    exact (names _ (List.getLast_mem route.ne_nil)).toIsName
  rw [Task.blockage, taskAt, blockage, if_neg (Nat.not_le.2 short)]
  refine obstacle_eq_none (fun n hn => ?_) fun front hp hne e he => ?_
  · rcases List.mem_cons.1 hn with rfl | hn
    · exact h.short
    · exact (names n (inner n hn)).short
  · obtain ⟨front, rfl, _⟩ := (List.prefix_cons_iff.1 hp).resolve_left hne
    cases (h.entry?_below front).symm.trans he

/-- The source of a task is the file itself. -/
theorem stat?_source : ∃ i, s.stat? cwd (taskAt input m ns).source = .ok (top ++ ns, .file i) ∧
    s.inode i = ⟨data, mode⟩ := by
  obtain ⟨mode', leads, there⟩ := h.leads
  obtain ⟨i, he, hi⟩ := view_eq_file.1 file
  exact ⟨i, Walk.stat?_of_entry h.sound.wellNamed leads there h.links he (h.fits.source file), hi⟩

theorem not_holdsDir : ¬s.holdsDir ((taskAt input m ns).place dir) := by
  rw [taskAt_place (h.ne_nil file), Store.holdsDir, h.entry?_below]
  exact Bool.false_ne_true

/-- The temporary file for what the decompiler says about a chunk can be begun. -/
theorem scratchFault_eq_none (compiled : Chunk.hasHeader data) :
    s.scratchFault cwd (joinAll output ns) = none := by
  obtain ⟨here, short⟩ := h.fits.scratch file compiled
  have route := h.route_iff.2 ⟨data, mode, file⟩
  have names : ∀ n ∈ m :: ns, IsName n := by
    intro n hn
    rcases List.mem_cons.1 hn with rfl | hn
    · exact h.outlet.name
    · exact route.names n hn
  have directory : isAbsolute (Publication.directory (joinAll output ns)) = isAbsolute output := by
    obtain ⟨front, n, rfl⟩ := (List.eq_nil_or_concat' ns).resolve_left route.ne_nil
    have parent : parentText? (below cs ((m :: front) ++ [n])) = some (below cs (m :: front)) :=
      parentText?_below h.outlet.base.normal names (List.cons_ne_nil m front)
    have front : ∀ k ∈ m :: front, IsName k := fun k hk => names k (List.mem_append_left [n] hk)
    have root : isAbsolute (ofComponents (cs ++ [m].map .name)) = isAbsolute (ofComponents cs) :=
      isAbsolute_ofComponents_append h.outlet.base.normal fun k hk => List.mem_singleton.1 hk ▸ h.outlet.name
    rw [joinAll_outlet h.outlet, ← List.cons_append, Publication.directory, parent, Option.getD_some,
      below, isAbsolute_ofComponents_append h.outlet.base.normal front, h.outlet.text]
    exact root.symm
  rw [scratchFault, scratchPath_eq (directory ▸ here)]
  exact if_neg (Nat.not_le.2 short)

/-- What becomes of a file depends on nothing but what it holds and what the decompiler says. -/
theorem forecast_eq (answer : Except Error ProcessOutput) :
    (taskAt input m ns).forecast s cwd cs dir answer =
      if Chunk.hasHeader data then
        match answer with
        | .error e => .error e
        | .ok output =>
          if output.success then .ok .converted
          else .error (.decompilerFailed (joinAll input ns) output)
      else .ok .copied := by
  obtain ⟨i, hs, hi⟩ := h.stat?_source file
  have compiled := isCompiled_of_file hs
  have path : (taskAt input m ns).path cs = joinAll output ns := by
    rw [taskAt_path (h.ne_nil file), joinAll_outlet h.outlet]
  -- nothing is there yet and every path fits, so that writing has no reason to fail
  have copies : s.copyFault ((taskAt input m ns).place dir) ((taskAt input m ns).path cs) = none := by
    rw [copyFault, path, if_neg (Nat.not_le.2 (h.fits.destination file)),
      if_neg (h.not_holdsDir file)]
  have publishes (compiled : Chunk.hasHeader data) :
      s.publishFault cwd ((taskAt input m ns).place dir) ((taskAt input m ns).path cs) = none := by
    rw [path]
    exact publishFault_eq_none.2 ⟨h.scratchFault_eq_none file compiled, h.fits.destination file,
      h.not_holdsDir file⟩
  have free := h.blockage_eq_none file
  rw [hi] at compiled
  cases hc : Chunk.hasHeader data with
  | false =>
    rw [hc] at compiled
    rw [Task.forecast_of_plain free compiled, copies, if_neg Bool.false_ne_true]
  | true =>
    rw [hc] at compiled
    rw [if_pos rfl]
    cases answer with
    | error e => exact Task.forecast_of_unanswered free compiled
    | ok output =>
      dsimp only
      cases success : output.success with
      | false =>
        rw [Task.forecast_of_failure free compiled success, if_neg Bool.false_ne_true]
        rfl
      | true => rw [Task.forecast_of_success free compiled success, publishes hc, if_pos rfl]

theorem content_copied (answer : Except Error ProcessOutput) :
    (taskAt input m ns).content s cwd answer .copied = ⟨data, mode⟩ := by
  obtain ⟨i, hs, hi⟩ := h.stat?_source file
  rw [Task.content, hs]
  exact hi

end Fresh

/-! ## At the end of a run -/

namespace Fresh

variable {cs : List Component} {dir : Location} {m : Name} {routes : List (List Name)} {b : BatchState}
  {answers : Nat → Except Error ProcessOutput}
  (h : Fresh s cwd top input output cs dir m)
  (mem : ∀ ns, ns ∈ routes ↔ ∃ data mode, s.view (top ++ ns) = some (.file data mode))
  (course : Course s cwd cs dir (routes.map (taskAt input m)) answers b) (done : b.isDone)

include h mem course done

/-- The directories that were made are those above the files of the tree. -/
theorem made_iff {ns : List Name} :
    Made s cs dir (routes.map (taskAt input m)) b.jobs (dir ++ m :: ns) ↔
      ∃ more data mode, more ≠ [] ∧ s.view (top ++ (ns ++ more)) = some (.file data mode) := by
  rw [course.made_iff done]
  constructor
  · rintro ⟨t, ht, _, front, hp, _, hl⟩
    obtain ⟨ks, hks, rfl⟩ := List.mem_map.1 ht
    obtain ⟨data, mode, file⟩ := (mem ks).1 hks
    obtain ⟨init, last, rfl⟩ := (List.eq_nil_or_concat' ks).resolve_left (h.ne_nil file)
    rw [List.append_cancel_left_eq] at hl
    subst hl
    obtain ⟨rest, hr⟩ := (List.cons_prefix_cons.1 hp).2
    rw [List.dropLast_concat] at hr
    subst hr
    exact ⟨rest ++ [last], data, mode, List.concat_ne_nil last rest, by rwa [← List.append_assoc ns]⟩
  · rintro ⟨more, data, mode, hne, file⟩
    refine ⟨_, List.mem_map_of_mem ((mem _).2 ⟨data, mode, file⟩), h.blockage_eq_none file, m :: ns, ?_,
      List.cons_ne_nil m ns, rfl⟩
    rw [taskAt, List.dropLast_append_of_ne_nil hne]
    exact List.cons_prefix_cons.2 ⟨rfl, _, rfl⟩

/-- The files that are finished are the copies, and the texts of the compiled chunks. -/
theorem finished_iff {ns : List Name} {f : Inode} :
    Finished s cwd cs dir (routes.map (taskAt input m)) answers b.jobs (dir ++ m :: ns) f ↔
      ∃ (k : Nat) (data : Bytes) (mode : Nat), routes[k]? = some ns ∧
        s.view (top ++ ns) = some (.file data mode) ∧
        if Chunk.hasHeader data then
          ∃ answer, answers k = .ok answer ∧ answer.success ∧ f = ⟨answer.stdout, s.masked 0o666⟩
        else f = ⟨data, mode⟩ := by
  rw [course.finished_iff done]
  constructor
  · rintro ⟨k, t, outcome, ht, hf, hl, hc⟩
    rw [List.getElem?_map] at ht
    obtain ⟨ks, hk, rfl⟩ := Option.map_eq_some_iff.1 ht
    obtain ⟨data, mode, file⟩ := (mem ks).1 (List.mem_of_getElem? hk)
    rw [taskAt_place (h.ne_nil file), List.append_cancel_left_eq] at hl
    obtain ⟨_, rfl⟩ := List.cons.inj hl
    -- a task that is done came to what was forecast for it
    rw [h.forecast_eq file] at hf
    refine ⟨k, data, mode, hk, file, ?_⟩
    split
    · next compiled =>
      rw [if_pos compiled] at hf
      cases ha : answers k with
      | error e =>
        rw [ha] at hf
        cases hf
      | ok answer =>
        rw [ha] at hf hc
        dsimp only at hf
        split at hf
        · next success =>
          cases hf
          exact ⟨answer, rfl, success, hc⟩
        · cases hf
    · next plain =>
      rw [if_neg plain] at hf
      cases hf
      rw [hc, h.content_copied file]
  · rintro ⟨k, data, mode, hk, file, hf⟩
    have ht : (routes.map (taskAt input m))[k]? = some (taskAt input m ns) := by
      rw [List.getElem?_map, hk]
      rfl
    have place : (taskAt input m ns).place dir = dir ++ m :: ns := taskAt_place (h.ne_nil file)
    split at hf
    · next compiled =>
      obtain ⟨answer, ha, success, rfl⟩ := hf
      refine ⟨k, _, .converted, ht, ?_, place.symm, ?_⟩
      · rw [h.forecast_eq file, if_pos compiled, ha]
        dsimp only
        rw [if_pos success]
      · unfold Task.content
        rw [ha]
    · next plain =>
      refine ⟨k, _, .copied, ht, ?_, place.symm, ?_⟩
      · rw [h.forecast_eq file, if_neg plain]
      · rw [hf, h.content_copied file]

/-- Above a file there is no other one. -/
theorem no_file_above {ns more : List Name} {data : Bytes} {mode : Nat} (hne : more ≠ [])
    (file : s.view (top ++ (ns ++ more)) = some (.file data mode)) (f : Inode) :
    ¬Finished s cwd cs dir (routes.map (taskAt input m)) answers b.jobs (dir ++ m :: ns) f := by
  intro hf
  obtain ⟨_, data', mode', _, above, _⟩ := (h.finished_iff mem course done).1 hf
  obtain ⟨i, he, _⟩ := view_eq_file.1 above
  obtain ⟨j, hb, _⟩ := view_eq_file.1 file
  rw [← List.append_assoc] at hb
  obtain ⟨mode'', hd⟩ := holdsDir_iff.1 (h.sound.holdsDir_of_below hne hb)
  cases he.symm.trans hd

/-- What is seen below the output directory is what belongs there. -/
theorem view_below_iff
    (said : ∀ {k : Nat} {ns : List Name} {data : Bytes} {mode : Nat}, routes[k]? = some ns →
      s.view (top ++ ns) = some (.file data mode) → Chunk.hasHeader data →
        ∀ answer, told ns answer ↔ answers k = answer)
    (ns : List Name) (v : View) :
    b.store.view (dir ++ m :: ns) = some v ↔ Mirrored s top told ns v := by
  have overlay := course.overlay
  constructor
  · intro hv
    -- nothing was below the output before: what is there was finished, or made on the way to it
    by_cases hf : ∃ f, Finished s cwd cs dir (routes.map (taskAt input m)) answers b.jobs (dir ++ m :: ns) f
    · obtain ⟨f, hf⟩ := hf
      rw [overlay.view_of_finished hf] at hv
      cases hv
      obtain ⟨k, data, mode, hk, file, content⟩ := (h.finished_iff mem course done).1 hf
      split at content
      · next compiled =>
        obtain ⟨answer, ha, success, rfl⟩ := content
        exact .text file compiled ((said hk file compiled _).2 ha) success
      · next plain =>
        subst content
        exact .copy file plain
    · rw [not_exists] at hf
      by_cases hm : Made s cs dir (routes.map (taskAt input m)) b.jobs (dir ++ m :: ns)
      · rw [overlay.view_of_made hf hm (h.entry?_below ns)] at hv
        cases hv
        obtain ⟨more, data, mode, hne, file⟩ := (h.made_iff mem course done).1 hm
        exact .directory hne file
      · rw [overlay.view_of_old hf fun hm' => hm hm'.1, view_eq_none.2 (h.entry?_below ns)] at hv
        cases hv
  · intro belongs
    cases belongs with
    | @copy data mode file plain =>
      obtain ⟨k, hk⟩ := List.mem_iff_getElem?.1 ((mem ns).2 ⟨data, mode, file⟩)
      have finished := (h.finished_iff mem course done (f := ⟨data, mode⟩)).2
        ⟨k, data, mode, hk, file, by rw [if_neg plain]⟩
      exact overlay.view_of_finished finished
    | @text data mode answer file compiled answered success =>
      obtain ⟨k, hk⟩ := List.mem_iff_getElem?.1 ((mem ns).2 ⟨data, mode, file⟩)
      have given := (said hk file compiled _).1 answered
      have finished := (h.finished_iff mem course done (f := ⟨answer.stdout, s.masked 0o666⟩)).2
        ⟨k, data, mode, hk, file, by rw [if_pos compiled]; exact ⟨answer, given, success, rfl⟩⟩
      exact overlay.view_of_finished finished
    | directory below file =>
      exact overlay.view_of_made (h.no_file_above mem course done below file)
        ((h.made_iff mem course done).2 ⟨_, _, _, below, file⟩) (h.entry?_below ns)

/-- Elsewhere nothing is changed. -/
theorem view_outside {loc : Location} (hl : ¬dir ++ [m] <+: loc) : b.store.view loc = s.view loc := by
  refine course.overlay.view_of_old (fun f hf => ?_) fun hm => ?_
  · obtain ⟨k, t, outcome, ht, _, rfl, _⟩ := (course.finished_iff done).1 hf
    obtain ⟨ks, hks, rfl⟩ := List.mem_map.1 (List.mem_of_getElem? ht)
    obtain ⟨data, mode, file⟩ := (mem ks).1 hks
    rw [taskAt_place (h.ne_nil file)] at hl
    exact hl ⟨ks, (List.append_cons dir m ks).symm⟩
  · obtain ⟨t, ht, _, front, hp, hne, rfl⟩ := (course.made_iff done).1 hm.1
    obtain ⟨ks, _, rfl⟩ := List.mem_map.1 ht
    obtain ⟨front, rfl, _⟩ := (List.prefix_cons_iff.1 hp).resolve_left hne
    exact hl ⟨front, (List.append_cons dir m front).symm⟩

end Fresh

/-! ## What was said about a file -/

/-- A file stands in a plan once, where it is among the routes. -/
theorem index_eq {routes : List (List Name)} {ns : List Name} {j k : Nat} (hi : input ≠ [])
    (names : ∀ ns ∈ routes, ∀ n ∈ ns, IsName n) (distinct : routes.Nodup) (hk : routes[k]? = some ns)
    (hj : (routes.map (Plan.itemAt input output))[j]? = some (Plan.itemAt input output ns)) : j = k := by
  rw [List.getElem?_map] at hj
  obtain ⟨ks, hks, he⟩ := Option.map_eq_some_iff.1 hj
  obtain rfl : ks = ns := joinAll_injective hi (names ks (List.mem_of_getElem? hks))
    (names ns (List.mem_of_getElem? hk)) (congrArg WorkItem.source he)
  obtain ⟨hlt, hget⟩ := List.getElem?_eq_some_iff.1 hks
  obtain ⟨hlt', hget'⟩ := List.getElem?_eq_some_iff.1 hk
  exact (List.Nodup.getElem_inj_iff distinct).1 (hget.trans hget'.symm)

namespace Fresh

variable {cs : List Component} {dir : Location} {m : Name} {routes : List (List Name)}
  {answers : Nat → Except Error ProcessOutput} {d : Decompiler} {plan : Plan} {schedule : List Nat}
  (h : Fresh s cwd top input output cs dir m) (quiet : d.Quiet)
  (items : plan.items = routes.map (Plan.itemAt input output)) (outputRoot : plan.outputRoot = output)
  (routes_iff : ∀ ns, ns ∈ routes ↔ Walk.Route s cwd input output ns) (distinct : routes.Nodup)
  (done : ((BatchState.initial s plan.items).run d cwd schedule).isDone)

include h quiet items outputRoot routes_iff distinct done

/-- About a compiled chunk of the tree the decompiler was asked, and said what it answered to the item. -/
theorem told_iff (given : ∀ k answer,
      BatchState.Answered d cwd (.initial s plan.items) schedule k answer → answers k = answer)
    {k : Nat} {ns : List Name} {data : Bytes} {mode : Nat} (hk : routes[k]? = some ns)
    (file : s.view (top ++ ns) = some (.file data mode)) (compiled : Chunk.hasHeader data)
    (answer : Except Error ProcessOutput) :
    Told d cwd s input plan schedule ns answer ↔ answers k = answer := by
  constructor
  · rintro ⟨j, hj, answered⟩
    obtain ⟨mode', leads, _⟩ := h.leads
    rw [items, outputRoot] at hj
    obtain rfl := index_eq (checkText_of_stat? leads).2.1
      (fun ns hns => ((routes_iff ns).1 hns).names) distinct hk hj
    exact given j answer answered
  · rintro rfl
    have ht : (routes.map (taskAt input m))[k]? = some (taskAt input m ns) := by
      rw [List.getElem?_map, hk]
      rfl
    -- success and failure would not come to the same
    have matters : (taskAt input m ns).forecast s cwd cs dir (.error default) ≠
        (taskAt input m ns).forecast s cwd cs dir (.ok ⟨[], [], some 0⟩) := by
      rw [h.forecast_eq file, h.forecast_eq file, if_pos compiled, if_pos compiled]
      intro he
      cases he
    obtain ⟨answer, answered⟩ : ∃ answer,
        BatchState.Answered d cwd (.initial s plan.items) schedule k answer := by
      rw [items, items_of_routes h.outlet fun ns hns => ((routes_iff ns).1 hns).ne_nil] at done ⊢
      exact exists_answered (h.scene (fun ns => (routes_iff ns).1) distinct) quiet done ht matters
    rw [given k answer answered]
    refine ⟨k, ?_, answered⟩
    rw [items, outputRoot, List.getElem?_map, hk]
    rfl

/-- Whatever order the stages come in, there is a mirror at the end. -/
theorem mirrors : Mirrors s ((BatchState.initial s plan.items).run d cwd schedule).store top (dir ++ [m])
    (Told d cwd s input plan schedule) := by
  have mem : ∀ ns, ns ∈ routes ↔ ∃ data mode, s.view (top ++ ns) = some (.file data mode) :=
    fun ns => (routes_iff ns).trans h.route_iff
  obtain ⟨answers, given⟩ := exists_answers d cwd (.initial s plan.items) schedule
  have course : Course s cwd cs dir (routes.map (taskAt input m)) answers
      ((BatchState.initial s plan.items).run d cwd schedule) := by
    rw [items, items_of_routes h.outlet fun ns hns => ((routes_iff ns).1 hns).ne_nil] at given ⊢
    exact course_of_answered (h.scene (fun ns => (routes_iff ns).1) distinct) quiet given
  have told : ∀ {k : Nat} {ns : List Name} {data : Bytes} {mode : Nat}, routes[k]? = some ns →
      s.view (top ++ ns) = some (.file data mode) → Chunk.hasHeader data →
      ∀ answer, Told d cwd s input plan schedule ns answer ↔ answers k = answer :=
    h.told_iff quiet items outputRoot routes_iff distinct done given
  refine ⟨fun loc hl => h.view_outside mem course done hl, fun ns v => ?_, ?_⟩
  · rw [List.append_assoc]
    exact h.view_below_iff mem course done told ns v
  · intro ns data mode file compiled
    obtain ⟨k, hk⟩ := List.mem_iff_getElem?.1 ((mem ns).2 ⟨data, mode, file⟩)
    have told := told hk file compiled
    exact ⟨answers k, (told _).2 rfl, fun answer ha => ((told answer).1 ha).symm⟩

end Fresh

/-! ## Whole conversions -/

/-- Converting a directory that no link stands below, with nothing where its output goes, leaves the
mirror of its tree there and changes nothing else: for any number of jobs, in any order of the stages,
and whatever the decompiler says about which file. The paths have to fit, and a relative output directory
has to be seen from a working directory that is there, unless the tree holds no compiled chunk. -/
theorem convertPath_mirrors {d : Decompiler} {mode : Nat} (sound : s.Sound cwd) (quiet : d.Quiet)
    (h : s.stat? cwd input = .ok (top, .dir mode)) (links : Walk.Unlinked s top)
    (ho : Plan.directoryOutput s cwd input = .ok output) (names : Designates s cwd output root)
    (vacant : s.entry? root = none) (fits : Fits s cwd top input output) :
    ∃ plan, plan.outputRoot = output ∧
      (∀ jobs, ∃ batch, convertPath d cwd jobs s input = .ok (plan, batch) ∧
        Mirrors s batch.store top root
          (Told d cwd s input plan (BatchState.sequential plan.items.length))) ∧
      ∀ schedule, ((BatchState.initial s plan.items).run d cwd schedule).isDone →
        Mirrors s ((BatchState.initial s plan.items).run d cwd schedule).store top root
          (Told d cwd s input plan schedule) := by
  obtain ⟨there, cs, dir, m, outlet⟩ := outlet_of_directoryOutput sound.wellNamed h ho
  obtain ⟨_, short, rfl⟩ := (designates_outlet_iff outlet).1 names
  have hd : s.isDir cwd input := isDir_iff.2 ⟨top, mode, h⟩
  have fresh : Fresh s cwd top input output cs dir m :=
    ⟨sound, ⟨mode, h, there⟩, links, outlet, short, vacant, fits⟩
  obtain ⟨routes, items, mem, sorted⟩ := Plan.items_ofDirectory sound.wellNamed hd output
  obtain ⟨plan, planned, items, rfl⟩ : ∃ plan, Plan.ofInput s cwd input = .ok plan ∧
      plan.items = routes.map (Plan.itemAt input output) ∧ plan.outputRoot = output :=
    ⟨_, Plan.ofInput_of_directoryOutput hd ho, items, rfl⟩
  have runs : ∀ schedule, ((BatchState.initial s plan.items).run d cwd schedule).isDone →
      Mirrors s ((BatchState.initial s plan.items).run d cwd schedule).store top (dir ++ [m])
        (Told d cwd s input plan schedule) := fun schedule done =>
    fresh.mirrors quiet items rfl mem (Plan.nodup_of_sorted sorted) done
  refine ⟨plan, rfl, fun jobs => ?_, runs⟩
  obtain ⟨store, _, done⟩ := BatchState.run_sequential d cwd jobs s plan.items
  refine ⟨_, ?_, store ▸ runs _ done⟩
  rw [convertPath, planned]
  rfl

/-- A compiled chunk, another file in a directory of its own, and a directory without files. -/
def nestedTree : Store :=
  ((((Store.empty.put [['i']] (.dir 0o755)).putFile [['i'], ['a']] ⟨27 :: Chunk.magic, 0o644⟩).put
    [['i'], ['d']] (.dir 0o755)).putFile [['i'], ['d'], ['f']] ⟨[7], 0o600⟩).put
    [['i'], ['e']] (.dir 0o755)

/-- Converting a tree of two files with a decompiler that always answers the same. -/
theorem convertPath_mirrors_nestedTree : nestedTree.Sound [] ∧
    nestedTree.stat? [] ['i'] = .ok ([['i']], .dir 0o755) ∧
    ∃ plan, plan.outputRoot = ['i', '.', 's', 'r', 'c'] ∧
      (∀ jobs, ∃ batch, convertPath (.constant (.ok ⟨[7], [], some 0⟩)) [] jobs nestedTree ['i'] =
          .ok (plan, batch) ∧
        Mirrors nestedTree batch.store [['i']] [['i', '.', 's', 'r', 'c']]
          (Told (.constant (.ok ⟨[7], [], some 0⟩)) [] nestedTree ['i'] plan
            (BatchState.sequential plan.items.length))) ∧
      ∀ schedule, ((BatchState.initial nestedTree plan.items).run
          (.constant (.ok ⟨[7], [], some 0⟩)) [] schedule).isDone →
        Mirrors nestedTree ((BatchState.initial nestedTree plan.items).run
            (.constant (.ok ⟨[7], [], some 0⟩)) [] schedule).store [['i']] [['i', '.', 's', 'r', 'c']]
          (Told (.constant (.ok ⟨[7], [], some 0⟩)) [] nestedTree ['i'] plan schedule) := by
  have sound : nestedTree.Sound [] := .of_admits (by decide) (by decide) (by decide)
  have leads : nestedTree.stat? [] ['i'] = .ok ([['i']], .dir 0o755) := by decide
  have kinds : ∀ x ∈ nestedTree.tree.entries, x.2.isDir ∨ x.2.isFile := by decide
  have short : ∀ x ∈ nestedTree.tree.entries,
      Utf8.byteLength (joinAll ['i'] (x.1.drop 1)) < pathLimit ∧
        Utf8.byteLength (joinAll ['i', '.', 's', 'r', 'c'] (x.1.drop 1)) < pathLimit ∧
        Utf8.byteLength (scratchText [] (joinAll ['i', '.', 's', 'r', 'c'] (x.1.drop 1))) < pathLimit := by
    decide
  have links : Walk.Unlinked nestedTree [['i']] := by
    intro ns target he
    rcases kinds _ (Tree.mem_entries he) with h | h <;> cases h
  have shortFile : ∀ {ns : List Name} {data : Bytes} {mode : Nat},
      nestedTree.view ([['i']] ++ ns) = some (.file data mode) →
      Utf8.byteLength (joinAll ['i'] ns) < pathLimit ∧
        Utf8.byteLength (joinAll ['i', '.', 's', 'r', 'c'] ns) < pathLimit ∧
        Utf8.byteLength (scratchText [] (joinAll ['i', '.', 's', 'r', 'c'] ns)) < pathLimit := by
    intro ns data mode file
    obtain ⟨i, he, _⟩ := view_eq_file.1 file
    exact short _ (Tree.mem_entries he)
  have located : nestedTree.locate [] ['i', '.', 's', 'r', 'c'] =
      .ok { dir := [], name? := some ['i', '.', 's', 'r', 'c'], slash := false } := by decide
  exact ⟨sound, leads, convertPath_mirrors sound (fun _ _ => rfl) leads links (by decide)
    ⟨[], _, false, located, rfl⟩ (by decide) ⟨fun h => (shortFile h).1, fun h => (shortFile h).2.1,
      fun h _ => ⟨.inr (by decide), (shortFile h).2.2⟩⟩⟩

/-- A directory with a compiled chunk. -/
def chunkDirectory : Store :=
  (Store.empty.put [['o']] (.dir 0o755)).putFile [['o'], ['a']] ⟨27 :: Chunk.magic, 0o644⟩

/-- From a working directory that has been removed, the text of a compiled chunk is not written: its
temporary file is named by its path from the root, and that cannot be made out. -/
theorem text_missing_chunkDirectory : chunkDirectory.Sound [[]] ∧
    chunkDirectory.stat? [[]] "../o".toList = .ok ([['o']], .dir 0o755) ∧
    Walk.Unlinked chunkDirectory [['o']] ∧
    Plan.directoryOutput chunkDirectory [[]] "../o".toList = .ok "../o.src".toList ∧
    Designates chunkDirectory [[]] "../o.src".toList ["o.src".toList] ∧
    chunkDirectory.entry? ["o.src".toList] = none ∧
    ∃ plan batch,
      convertPath (.constant (.ok ⟨[7], [], some 0⟩)) [[]] 1 chunkDirectory "../o".toList =
        .ok (plan, batch) ∧
      batch.store.view ["o.src".toList, ['a']] = none ∧
      ¬Mirrors chunkDirectory batch.store [['o']] ["o.src".toList]
        (Told (.constant (.ok ⟨[7], [], some 0⟩)) [[]] chunkDirectory "../o".toList plan
          (BatchState.sequential plan.items.length)) := by
  have here : chunkDirectory.Sound [] := .of_admits (by decide) (by decide) (by decide)
  have sound : chunkDirectory.Sound [[]] :=
    { here with here := .inr ⟨[], [], [], rfl, here.root, fun lawful => lawful.ne_nil rfl⟩ }
  have links : Walk.Unlinked chunkDirectory [['o']] := by
    have kinds : ∀ x ∈ chunkDirectory.tree.entries, x.2.isDir ∨ x.2.isFile := by decide
    intro ns target he
    rcases kinds _ (Tree.mem_entries he) with h | h <;> cases h
  have located : chunkDirectory.locate [[]] "../o.src".toList =
      .ok { dir := [], name? := some "o.src".toList, slash := false } := by decide
  have dir : chunkDirectory.isDir [[]] "../o".toList := by decide
  have output : Plan.directoryOutput chunkDirectory [[]] "../o".toList = .ok "../o.src".toList := by decide
  obtain ⟨plan, planned, items⟩ : ∃ plan,
      Plan.ofInput chunkDirectory [[]] "../o".toList = .ok plan ∧
      plan.items = [⟨"../o/a".toList, "../o.src/a".toList⟩] :=
    ⟨_, Plan.ofInput_of_directoryOutput dir output, by decide +kernel⟩
  refine ⟨sound, by decide, links, output, ⟨[], _, false, located, rfl⟩, by decide, plan,
    convertBatch (.constant (.ok ⟨[7], [], some 0⟩)) [[]] 1 chunkDirectory plan.items, ?_, ?_,
    fun mirrors => ?_⟩
  · rw [convertPath, planned]
    rfl
  · rw [items]
    decide +kernel
  · -- the decompiler was asked and answered, so its text belongs there
    have file : chunkDirectory.view ([['o']] ++ [['a']]) = some (.file (27 :: Chunk.magic) 0o644) := by
      decide
    obtain ⟨answer, said, _⟩ := mirrors.asked [['a']] _ _ file (by decide)
    obtain ⟨_, _, _, _, _, _, _, rfl⟩ := id said
    have there := (mirrors.inside [['a']] _).2 (.text file (by decide) said rfl)
    rw [items] at there
    revert there
    decide +kernel

end LuaTree

import LuaTree.Proofs.Convert.Beside
import LuaTree.Proofs.Convert.Frame
import LuaTree.Proofs.Plan.Items

/-!
# A conversion does no harm

The plan for an input says where a conversion is free to write (`Plan.Covers`): to the output file of a
single file, to the output directory of a directory and what is below it. If no link leads out of there
and no file there has another name elsewhere, no run of the batch changes anything else, whatever links
the input is full of and whichever items fail (`run_unharmed`). What is new is a directory, or stands
where an item goes to; so no temporary file is left either.
-/

namespace LuaTree

open PathText Store

variable {s t : Store} {cwd : Location} {input : PathText} {items : List WorkItem}

/-- The locations that a plan is free to write to. -/
def Plan.Covers (s : Store) (cwd : Location) (plan : Plan) (loc : Location) : Prop :=
  ∃ root, Designates s cwd plan.outputRoot root ∧
    match plan.kind with
    | .file => loc = root
    | .directory => root <+: loc

/-! ## Directories -/

/-- The locations below what a path names. -/
def Below (s : Store) (cwd : Location) (p : PathText) (loc : Location) : Prop :=
  ∃ root, Designates s cwd p root ∧ root <+: loc

/-- A path that no lookup accepts is confined to anything. -/
theorem confined_of_long {area : Location → Prop} {p dir : PathText} (h0 : '\x00' ∉ p)
    (hl : pathLimit ≤ Utf8.byteLength p) (hp : parentText? p = some dir) (hd0 : '\x00' ∉ dir)
    (hd : pathLimit ≤ Utf8.byteLength dir) : Confined t cwd area p := by
  have hne : p ≠ [] := by
    rintro rfl
    exact absurd hl (by decide)
  have hc := checkText_eq h0 hne
  rw [if_pos hl] at hc
  refine ⟨.inl ?_, fun {place} h => ?_, fun {loc} h => ?_⟩
  · rw [ensureParent, hp]
    exact makeDirs_of_long t cwd hd0 hd
  · rw [lookup_of_checkText_error t cwd .create hc] at h
    cases h
  · obtain ⟨dir, n, slash, h, _⟩ := h
    rw [locate, hc] at h
    cases h

variable {output : PathText} {cs : List Component} {top dir : Location} {m : Name}

theorem joinAll_outlet (outlet : Outlet s cwd top output cs dir m) (ns : List Name) :
    joinAll output ns = below cs (m :: ns) := by
  rw [outlet.text, joinAll_ofComponents, below, List.map_cons, List.append_assoc]
  rfl

/-- What is found behind an output directory that cannot be looked up is nothing at all. -/
theorem linkFree_of_long (sound : t.Sound cwd) {a : Location} {way : List Name}
    (hm : nameLimit < Utf8.byteLength m) : LinkFree t a (m :: way) := by
  intro front hp hne target he
  obtain ⟨front, rfl, _⟩ := (List.prefix_cons_iff.1 hp).resolve_left hne
  exact absurd (sound.lawful_of_mem he m List.mem_cons_self).short (Nat.not_le.2 hm)

/-- The output directory names the location it is at, unless its text or its name is too long. -/
theorem designates_outlet_iff (outlet : Outlet s cwd top output cs dir m) {loc : Location} :
    Designates s cwd output loc ↔
      Utf8.byteLength output < pathLimit ∧ Utf8.byteLength m ≤ nameLimit ∧ loc = dir ++ [m] := by
  have approach : Approach s cwd output dir ([] ++ [m]) := outlet.approach
  rw [approach.designates_iff (.nil s dir), hindrance, List.append_nil]
  exact and_congr_right fun _ => and_iff_right rfl

/-- Creating the directory above a destination creates directories below the base, or nothing. -/
theorem ensureParent_filled {a : Location} {way : List Name} {n : Name} (sound : t.Sound cwd)
    (base : Base t cwd cs a) (names : ∀ k ∈ way ++ [n], IsName k) (nul : ∀ k ∈ way ++ [n], '\x00' ∉ k)
    (short : ∀ k ∈ way.tail, Utf8.byteLength k ≤ nameLimit) (free : LinkFree t a way) (hne : way ≠ []) :
    (ensureParent t cwd (below cs (way ++ [n]))).2 = t ∨
      Filled t (ensureParent t cwd (below cs (way ++ [n]))).2 a way ∧ ∀ k ∈ way, Lawful k := by
  have made := ensureParent_below sound base names nul short free hne
  cases hb : t.blockage a way (below cs way) with
  | some e =>
    rw [hb] at made
    exact .inl (congrArg Prod.snd made)
  | none =>
    rw [hb] at made
    obtain ⟨u, hu, filled⟩ := made
    refine .inr ⟨?_, fun k hk => ⟨names k (List.mem_append_left _ hk),
      nul k (List.mem_append_left _ hk), short_of_blockage hb short k hk⟩⟩
    rw [hu]
    exact filled

/-- The destinations of a directory's items are confined to its output directory. -/
theorem confined_outlet (outlet : Outlet s cwd top output cs dir m)
    {targets : List PathText} (framed : Framed s t cwd (Below s cwd output) targets)
    {ns : List Name} (hne : ns ≠ []) (lawful : ∀ n ∈ ns, Lawful n) :
    Confined t cwd (Below s cwd output) (joinAll output ns) := by
  obtain ⟨front, n, rfl⟩ := (List.eq_nil_or_concat' ns).resolve_left hne
  have names : ∀ k ∈ (m :: front) ++ [n], IsName k := by
    intro k hk
    rcases List.mem_cons.1 hk with rfl | hk
    · exact outlet.name
    · exact (lawful k hk).toIsName
  have nul : ∀ k ∈ (m :: front) ++ [n], '\x00' ∉ k := by
    intro k hk
    rcases List.mem_cons.1 hk with rfl | hk
    · exact outlet.name_no_nul
    · exact (lawful k hk).no_nul
  have text : joinAll output (front ++ [n]) = below cs ((m :: front) ++ [n]) := joinAll_outlet outlet _
  have base := outlet.base.mono framed.keeps
  have approach : Approach t cwd (joinAll output (front ++ [n])) dir ((m :: front) ++ [n]) := by
    rw [text]
    exact base.approach names nul (List.concat_ne_nil _ _)
  -- where the output itself cannot be looked up, neither can anything below it
  by_cases hl : pathLimit ≤ Utf8.byteLength output
  · have long : ∀ way : List Name, (∀ k ∈ way, IsName k) →
        pathLimit ≤ Utf8.byteLength (joinAll output way) := fun way hw =>
      Nat.le_trans hl (byteLength_le_joinAll output hw)
    have parent : parentText? (joinAll output (front ++ [n])) = some (below cs (m :: front)) := by
      rw [text]
      exact parentText?_below base.normal names (List.cons_ne_nil m front)
    have shorter : pathLimit ≤ Utf8.byteLength (below cs (m :: front)) := by
      rw [← joinAll_outlet outlet]
      exact long front fun k hk => (lawful k (List.mem_append_left _ hk)).toIsName
    refine confined_of_long approach.no_nul (long _ fun k hk => (lawful k hk).toIsName) parent ?_ shorter
    exact (base.approach (fun k hk => names k (List.mem_append_left _ hk))
      (fun k hk => nul k (List.mem_append_left _ hk)) (List.cons_ne_nil m front)).no_nul
  · have inside : ∀ way : List Name, Utf8.byteLength m ≤ nameLimit →
        Below s cwd output (dir ++ m :: way) := fun way hm =>
      ⟨dir ++ [m], (designates_outlet_iff outlet).2 ⟨Nat.not_le.1 hl, hm, rfl⟩, way, List.append_assoc _ _ _⟩
    have free : LinkFree t dir ((m :: front) ++ [n]) := by
      by_cases hm : nameLimit < Utf8.byteLength m
      · exact linkFree_of_long framed.sound hm
      · intro way hp hne target
        obtain ⟨way, rfl, _⟩ := (List.prefix_cons_iff.1 hp).resolve_left hne
        exact framed.free (inside way (Nat.not_lt.1 hm)) target
    have freeAbove : LinkFree t dir (m :: front) := free.front ⟨[n], rfl⟩
    refine approach.confined free ?_ fun {loc} h => ?_
    · rw [text]
      refine (ensureParent_filled framed.sound base names nul (fun k hk =>
        (lawful k (List.mem_append_left _ hk)).short) freeAbove (List.cons_ne_nil m front)).imp_right ?_
      rintro ⟨filled, above⟩
      refine ⟨dir, m :: front, filled, above, fun way hp hne => ?_⟩
      obtain ⟨way, rfl, _⟩ := (List.prefix_cons_iff.1 hp).resolve_left hne
      exact inside way (above m List.mem_cons_self).short
    · obtain ⟨_, hh, _, rfl⟩ := (approach.designates_iff freeAbove).1 h
      rw [List.append_assoc, List.cons_append]
      rw [hindrance] at hh
      split at hh
      · cases hh
      · next hm => exact inside _ (Nat.not_lt.1 hm)

/-! ## Single files -/

variable {front : PathText}

/-- Nothing can be written to `..`. -/
theorem Front.confined_up (h : Front s cwd front dir) (rooted : s.Rooted) (area : Location → Prop) :
    Confined s cwd area (front ++ ['.', '.']) := by
  have quiet := h.ensureParent_eq rooted (n := ['.', '.']) (by decide) (by decide) (by decide)
  refine ⟨.inl (congrArg Prod.snd quiet), fun {place} hl => ?_, fun {loc} hd => ?_⟩
  · cases hc : checkText (front ++ ['.', '.']) with
    | error cause =>
      rw [lookup_of_checkText_error s cwd .create hc] at hl
      cases hl
    | ok _ =>
      obtain ⟨place', mode, hup, he⟩ := h.lookup_up rooted hc
      cases hup.symm.trans hl
      exact .inr ⟨_, _, rfl, he, fun hfile => by cases hfile⟩
  · obtain ⟨dir', n, slash', hl, _⟩ := hd
    obtain ⟨_, _, hname, _⟩ := locate_eq_ok_iff.1 hl
    cases hname.trans h.lastName?_up

/-- The destination of a single file is confined to what it names. -/
theorem confined_fileOutput (sound : s.Sound cwd) (h : s.isFile cwd input) {targets : List PathText}
    (framed : Framed s t cwd (Designates s cwd (fileOutput input)) targets) :
    Confined t cwd (Designates s cwd (fileOutput input)) (fileOutput input) := by
  obtain ⟨loc, i, hs⟩ := isFile_iff.1 h
  obtain ⟨front, n, dir, rfl, name, n0, before⟩ := exists_front_of_stat? sound.coherent hs
  have after := before.mono framed.keeps
  obtain ⟨m, hm, mname, m0⟩ := exists_fileOutput before.separated name
  rw [hm] at framed ⊢
  rcases mname with rfl | mname
  · exact after.confined_up framed.sound.toRooted _
  · have quiet := congrArg Prod.snd
      (after.ensureParent_eq framed.sound.toRooted mname.no_separator mname.ne_nil mname.ne_here)
    have was : Approach s cwd (front ++ m) dir ([] ++ [m]) := before.approach mname (m0 n0)
    have approach : Approach t cwd (front ++ m) dir ([] ++ [m]) := after.approach mname (m0 n0)
    -- where the destination is does not depend on what is written
    have same : ∀ {l}, Designates t cwd (front ++ m) l → Designates s cwd (front ++ m) l := fun hd =>
      (was.designates_iff (.nil s dir)).2 ((approach.designates_iff (.nil t dir)).1 hd)
    by_cases hl : pathLimit ≤ Utf8.byteLength (front ++ m)
    · have hc := checkText_eq approach.no_nul (approach.ne_nil (List.concat_ne_nil m []))
      rw [if_pos hl] at hc
      refine ⟨.inl quiet, fun {place} h => ?_, same⟩
      rw [lookup_of_checkText_error t cwd .create hc] at h
      cases h
    · refine approach.confined (.single fun target he => ?_) (.inl quiet) same
      have short := (framed.sound.lawful he).short
      exact framed.free ((was.designates_iff (.nil s dir)).2 ⟨Nat.not_le.1 hl, rfl, short, rfl⟩) target
        (by rwa [List.append_nil])

/-! ## The inputs are never damaged -/

/-- After a conversion to `t`, everything that the plan does not cover is as it was in `s`, and what is
new is a directory or stands where an item goes to. -/
structure Unharmed (s t : Store) (cwd : Location) (plan : Plan) : Prop where
  outside : ∀ loc, ¬plan.Covers s cwd loc → t.view loc = s.view loc
  new : ∀ loc e, s.entry? loc = none → t.entry? loc = some e →
    e.isDir ∨ ∃ item ∈ plan.items, Designates t cwd item.destination loc

theorem Store.Framed.unharmed {plan : Plan}
    (h : Framed s t cwd (plan.Covers s cwd) (plan.items.map (·.destination))) :
    Unharmed s t cwd plan where
  outside := fun _ hl => h.view hl
  new := by
    intro loc e hs ht
    refine (h.new hs ht).imp_right ?_
    rintro ⟨p, hp, hd⟩
    obtain ⟨item, hi, rfl⟩ := List.mem_map.1 hp
    exact ⟨item, hi, hd⟩

/-- Every item of a plan is confined to what the plan covers. -/
theorem confined_of_ofInput (sound : s.Sound cwd) {plan : Plan} (h : Plan.ofInput s cwd input = .ok plan)
    {targets : List PathText} (framed : Framed s t cwd (plan.Covers s cwd) targets) :
    ∀ item ∈ plan.items, Confined t cwd (plan.Covers s cwd) item.destination := by
  by_cases hd : s.isDir cwd input
  · obtain ⟨top, mode, hs⟩ := isDir_iff.1 hd
    rcases Plan.stranded_or_planned hd with ⟨cause, stranded⟩ | ⟨output, ho, planned⟩
    · cases (Plan.ofInput_of_stranded stranded).symm.trans h
    cases planned.symm.trans h
    obtain ⟨_, cs, dir, m, outlet⟩ := outlet_of_directoryOutput sound.wellNamed hs ho
    obtain ⟨routes, items, mem, _⟩ := Plan.items_ofDirectory sound.wellNamed hd output
    intro item hi
    rw [items] at hi
    obtain ⟨ns, hns, rfl⟩ := List.mem_map.1 hi
    have route := (mem ns).1 hns
    exact confined_outlet outlet framed route.ne_nil (route.lawful sound.wellNamed)
  · have same : ∀ p : PathText, (Plan.ofFile p).Covers s cwd = Designates s cwd (fileOutput p) := by
      intro p
      funext loc
      exact propext ⟨fun ⟨root, hr, he⟩ => he ▸ hr, fun hr => ⟨loc, hr, rfl⟩⟩
    rw [Plan.ofInput, if_neg hd] at h
    split at h
    · next hf =>
      cases h
      intro item hi
      obtain rfl := List.mem_singleton.1 hi
      rw [same] at framed ⊢
      exact confined_fileOutput sound hf framed
    · cases h

/-- Whatever the input is and whichever items fail, a conversion changes nothing but what its plan
covers, and leaves nothing there but directories and the files that it is for: if no link is in that
place, and no file there has another name elsewhere. -/
theorem run_unharmed {d : Decompiler} {plan : Plan} (sound : s.Sound cwd) (quiet : d.Quiet)
    (h : Plan.ofInput s cwd input = .ok plan)
    (free : ∀ loc, plan.Covers s cwd loc → ∀ target, s.entry? loc ≠ some (.link target))
    (apart : ∀ loc loc' i, plan.Covers s cwd loc → ¬plan.Covers s cwd loc' →
      s.entry? loc = some (.file i) → s.entry? loc' ≠ some (.file i)) :
    (∀ schedule, Unharmed s ((BatchState.initial s plan.items).run d cwd schedule).store cwd plan) ∧
      ∀ jobs, Unharmed s (convertBatch d cwd jobs s plan.items).store cwd plan := by
  have runs : ∀ schedule,
      Unharmed s ((BatchState.initial s plan.items).run d cwd schedule).store cwd plan := by
    intro schedule
    refine Framed.unharmed (Framed.run quiet (fun framed => confined_of_ofInput sound h framed) ?_
      (BatchState.items_initial s plan.items) schedule)
    exact .refl sound free apart
  refine ⟨runs, fun jobs => ?_⟩
  rw [← (BatchState.run_sequential d cwd jobs s plan.items).1]
  exact runs _

/-- A tree full of links, with a second name for a file and an output directory that is in use. -/
def usedTree : Store :=
  (Plan.linkedTree.put [['i'], ['h']] (.file 1)).putFile [['i', '.', 's', 'r', 'c'], ['h']] ⟨[3], 0o600⟩

/-- Converting a tree with all kinds of links over an earlier output. -/
theorem run_unharmed_usedTree : usedTree.Sound [] ∧
    ∃ plan, Plan.ofInput usedTree [] ['i'] = .ok plan ∧
      (∀ schedule, Unharmed usedTree ((BatchState.initial usedTree plan.items).run
        (.constant (.ok ⟨[7], [], some 0⟩)) [] schedule).store [] plan) ∧
      ∀ jobs, Unharmed usedTree (convertBatch (.constant (.ok ⟨[7], [], some 0⟩)) [] jobs
        usedTree plan.items).store [] plan := by
  have sound : usedTree.Sound [] := .of_admits (by decide) (by decide) (by decide)
  have dir : usedTree.isDir [] ['i'] := by decide
  have output : Plan.directoryOutput usedTree [] ['i'] = .ok ['i', '.', 's', 'r', 'c'] := by decide
  have planned := Plan.ofInput_of_directoryOutput dir output
  -- the plan covers what is below its output directory
  have root : ∀ loc, (Plan.ofDirectory usedTree [] ['i'] ['i', '.', 's', 'r', 'c']).Covers usedTree [] loc ↔
      [['i', '.', 's', 'r', 'c']] <+: loc := by
    have located : usedTree.locate [] ['i', '.', 's', 'r', 'c'] =
        .ok { dir := [], name? := some ['i', '.', 's', 'r', 'c'], slash := false } := by decide
    refine fun loc => ⟨fun ⟨root, ⟨dir, n, slash, hl, he⟩, hr⟩ => ?_, fun hr => ?_⟩
    · cases hl.symm.trans located
      subst he
      exact hr
    · exact ⟨_, ⟨[], _, false, located, rfl⟩, hr⟩
  refine ⟨sound, _, planned, run_unharmed sound (fun _ _ => rfl) planned ?_ ?_⟩
  · intro loc hc target he
    have clear : ∀ x ∈ usedTree.tree.entries, [['i', '.', 's', 'r', 'c']] <+: x.1 →
        x.2 = .dir 0o755 ∨ x.2 = .file 2 := by decide
    rcases clear _ (Tree.mem_entries he) ((root loc).1 hc) with h | h <;> cases h
  · intro loc loc' i hc hc' he he'
    have alone : ∀ x ∈ usedTree.tree.entries, ∀ y ∈ usedTree.tree.entries,
        [['i', '.', 's', 'r', 'c']] <+: x.1 → ¬[['i', '.', 's', 'r', 'c']] <+: y.1 →
        x.2.isFile → x.2 ≠ y.2 := by decide
    exact alone _ (Tree.mem_entries he) _ (Tree.mem_entries he') ((root loc).1 hc)
      (fun h => hc' ((root loc').2 h)) rfl rfl

end LuaTree

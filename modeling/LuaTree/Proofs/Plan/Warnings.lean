import LuaTree.Proofs.Path.Spelling
import LuaTree.Proofs.Plan.Items
import LuaTree.Proofs.Plan.Littered
import LuaTree.Proofs.Plan.Refusal
import LuaTree.Proofs.Plan.Reports
import LuaTree.Proofs.Plan.Traversal

/-!
# What a plan warns of

* `Skips` lists what a walk warns of: links that lead nowhere, links back to a directory that the walk is
  inside of, and directories whose path is too long to be looked up, unless they are left out;
* `Walk.reported_littered_iff`: what litter is added to a store makes no difference to the files that a
  walk reports.
-/

namespace LuaTree.Walk

open PathText Store

/-- The walk through `input` warns of what it gets to by the names. -/
inductive Skips (s : Store) (cwd : Location) (leaveOut : Option PathText) (input : PathText) :
    List Name → WalkFault → Prop
  /-- A link that leads nowhere. -/
  | broken {inside dir ns n target cause} : Inside s cwd leaveOut input inside dir ns →
      Enters s cwd leaveOut dir → s.entry? (dir.location ++ [n]) = some (.link target) →
      s.stat? cwd (join dir.path n) = .error cause →
      Skips s cwd leaveOut input (ns ++ [n]) (.unreadable (join dir.path n) cause)
  /-- A link to a directory that the walk is inside of; the nearest of its kind is named. -/
  | loop {inside dir ns n target location mode nearer above further} :
      Inside s cwd leaveOut input inside dir ns → Enters s cwd leaveOut dir →
      s.entry? (dir.location ++ [n]) = some (.link target) →
      s.stat? cwd (join dir.path n) = .ok (location, .dir mode) →
      dir :: inside = nearer ++ above :: further → above.location = location →
      (∀ a ∈ nearer, a.location ≠ location) →
      Skips s cwd leaveOut input (ns ++ [n]) (.loop (join dir.path n) above.path)
  /-- A directory whose path is too long, if it is not the one that is left out. -/
  | long {inside dir ns} : Inside s cwd leaveOut input inside dir ns →
      (∀ place, leaveOut = some place → s.canonical? cwd dir.path ≠ .ok place) →
      pathLimit ≤ Utf8.byteLength dir.path →
      Skips s cwd leaveOut input ns (.unreadable dir.path (.os .nameTooLong))

variable {s t : Store} {cwd : Location} {leaveOut : Option PathText} {input : PathText}
  {inside : List Ancestor} {dir : Ancestor} {n : Name} {ns : List Name} {f : WalkFault}

/-! ## The warnings -/

theorem reported_fault_iff (wellNamed : s.WellNamed) :
    Reported s cwd leaveOut input ns (.fault f) ↔ Skips s cwd leaveOut input ns f := by
  constructor
  · intro h
    generalize hg : Finding.fault f = g at h
    cases h with
    | entry h enters he hv =>
      subst hg
      obtain ⟨⟨target, hl⟩, ⟨cause, hs, rfl⟩ | ⟨location, mode, above, hs, nearest, rfl⟩⟩ :=
        visit_eq_fault.1 hv
      · exact .broken h enters hl hs
      · obtain ⟨nearer, further, split, same, free⟩ := find?_ancestor_iff.1 nearest
        exact .loop h enters hl hs split same free
    | unread h free hs =>
      cases hg
      rcases h.stat? wellNamed with ⟨mode, hs'⟩ | ⟨long, hs'⟩
      · cases hs.symm.trans hs'
      · cases hs.symm.trans hs'
        exact .long h free long
  · intro h
    cases h with
    | broken h enters he hs => exact .entry h enters he (visit_eq_fault.2 ⟨⟨_, he⟩, .inl ⟨_, hs, rfl⟩⟩)
    | loop h enters he hs split same free =>
      have nearest := find?_ancestor_iff.2 ⟨_, _, split, same, free⟩
      exact .entry h enters he (visit_eq_fault.2 ⟨⟨_, he⟩, .inr ⟨_, _, _, hs, nearest, rfl⟩⟩)
    | long h free long =>
      rcases h.stat? wellNamed with ⟨mode, hs⟩ | ⟨_, hs⟩
      · exact absurd long (Nat.not_le.2 (checkText_of_stat? hs).2.2)
      · exact .unread h free hs

/-- A regular file is reported when its entry, or a link to it, is looked at. -/
theorem reported_file_iff {path : PathText} : Reported s cwd leaveOut input ns (.file path) ↔
    ∃ inside dir front n, Inside s cwd leaveOut input inside dir front ∧ Enters s cwd leaveOut dir ∧
      visit s cwd inside dir n = .report (.file path) ∧ ns = front ++ [n] := by
  constructor
  · intro h
    generalize hg : Finding.file path = g at h
    cases h with
    | unread _ _ _ => cases hg
    | entry h enters _ hv =>
      subst hg
      exact ⟨_, _, _, _, h, enters, hv, rfl⟩
  · rintro ⟨inside, dir, front, n, h, enters, hv, rfl⟩
    obtain ⟨_, ⟨i, he⟩ | ⟨⟨target, he⟩, _⟩⟩ := visit_eq_file.1 hv
    · exact .entry h enters he hv
    · exact .entry h enters he hv

/-! ## Litter -/

section

variable {output : PathText} (litters : Litters s t) (wellNamed : s.WellNamed) (wellNamed' : t.WellNamed)
  (way : Passable t cwd)

include litters wellNamed wellNamed' way

theorem enters_littered_iff : Enters t cwd (t.canonical? cwd output).toOption dir ↔
    Enters s cwd (s.canonical? cwd output).toOption dir := by
  rw [enters_toOption_iff, enters_toOption_iff]
  have read (mode : Nat) := litters.stat?_iff wellNamed.root wellNamed' way (p := dir.path) (b := dir.location)
    (e := .dir mode) (.inl rfl)
  simp only [read]
  refine and_congr_right fun ⟨mode, hs⟩ => not_congr ?_
  exact litters.same_place_iff wellNamed wellNamed' way hs output

/-- An entry that leads to something useful is an old one. -/
theorem entry_of_littered {e f : Entry} {location : Location}
    (enters : Enters s cwd leaveOut dir) (he : t.entry? (dir.location ++ [n]) = some e)
    (ht : t.stat? cwd (join dir.path n) = .ok (location, f)) (hf : f.isDir ∨ f.isFile) :
    s.entry? (dir.location ++ [n]) = some e := by
  obtain ⟨⟨mode, hs⟩, _⟩ := enters
  have leads := litters.stat?_of_littered wellNamed.root wellNamed' way ht hf
  obtain ⟨e', he'⟩ := exists_entry_of_join hs (wellNamed'.lawful he).toIsName leads
  rw [he', ← litters.gains _ _ he', he]

theorem inside_littered_iff : Inside t cwd (t.canonical? cwd output).toOption input inside dir ns ↔
    Inside s cwd (s.canonical? cwd output).toOption input inside dir ns := by
  constructor
  · intro h
    induction h with
    | input hs => exact .input (litters.stat?_of_littered wellNamed.root wellNamed' way hs (.inl rfl))
    | dir _ enters he ih =>
      exact .dir ih ((enters_littered_iff litters wellNamed wellNamed' way).1 enters)
        (litters.entry_of_useful wellNamed.root he (.inl rfl))
    | link _ enters he ht free ih =>
      have enters' := (enters_littered_iff litters wellNamed wellNamed' way).1 enters
      have old := entry_of_littered litters wellNamed wellNamed' way enters' he ht (.inl rfl)
      exact .link ih enters' old (litters.stat?_of_littered wellNamed.root wellNamed' way ht (.inl rfl)) free
  · intro h
    induction h with
    | input hs => exact .input (litters.stat?_littered wellNamed.root way hs)
    | dir _ enters he ih =>
      exact .dir ih ((enters_littered_iff litters wellNamed wellNamed' way).2 enters) (litters.gains _ _ he)
    | link _ enters he ht free ih =>
      exact .link ih ((enters_littered_iff litters wellNamed wellNamed' way).2 enters) (litters.gains _ _ he)
        (litters.stat?_littered wellNamed.root way ht) free

theorem visit_littered_iff {path : PathText} (enters : Enters s cwd leaveOut dir) :
    visit t cwd inside dir n = .report (.file path) ↔ visit s cwd inside dir n = .report (.file path) := by
  rw [visit_eq_file, visit_eq_file]
  refine and_congr_right fun _ => ⟨?_, ?_⟩
  · rintro (⟨i, hi⟩ | ⟨⟨target, hl⟩, hf⟩)
    · exact .inl ⟨i, litters.entry_of_useful wellNamed.root hi (.inr rfl)⟩
    · obtain ⟨location, i, ht⟩ := isFile_iff.1 hf
      have old := entry_of_littered litters wellNamed wellNamed' way enters hl ht (.inr rfl)
      have leads := litters.stat?_of_littered wellNamed.root wellNamed' way ht (.inr rfl)
      exact .inr ⟨⟨target, old⟩, isFile_iff.2 ⟨_, _, leads⟩⟩
  · rintro (⟨i, hi⟩ | ⟨⟨target, hl⟩, hf⟩)
    · exact .inl ⟨i, litters.gains _ _ hi⟩
    · obtain ⟨location, i, hs⟩ := isFile_iff.1 hf
      have leads := litters.stat?_littered wellNamed.root way hs
      exact .inr ⟨⟨target, litters.gains _ _ hl⟩, isFile_iff.2 ⟨_, _, leads⟩⟩

/-- The files that are reported are the same with the litter and without. -/
theorem reported_littered_iff {path : PathText} :
    Reported t cwd (t.canonical? cwd output).toOption input ns (.file path) ↔
      Reported s cwd (s.canonical? cwd output).toOption input ns (.file path) := by
  rw [reported_file_iff, reported_file_iff]
  refine exists₄_congr fun inside dir front n => ?_
  rw [inside_littered_iff litters wellNamed wellNamed' way, enters_littered_iff litters wellNamed wellNamed' way]
  refine and_congr_right fun _ => and_congr_right fun enters => and_congr_left fun _ => ?_
  exact visit_littered_iff litters wellNamed wellNamed' way enters

end

end LuaTree.Walk

namespace LuaTree.Plan

open PathText Store

variable {s t : Store} {cwd : Location} {input output : PathText}

/-- What is warned of when a plan is made is what the walk skips. -/
theorem filter_notices_ofDirectory (s : Store) (cwd : Location) (input output : PathText) :
    (ofDirectory s cwd input output).notices.filter (·.level = .warn) =
      ((Walk.findings s cwd input output).filterMap Walk.Finding.fault?).map .skipped := by
  have faults : (ofDirectory s cwd input output).faults =
      (Walk.findings s cwd input output).filterMap Walk.Finding.fault? := by
    refine congrArg (fun f => (Walk.findings s cwd input output).filterMap f) (funext fun f => ?_)
    cases f <;> rfl
  show ((ofDirectory s cwd input output).faults.map Notice.skipped ++ [_]).filter _ = _
  rw [faults, List.filter_append, List.filter_eq_self.2]
  · simp [Notice.level]
  · intro notice hn
    obtain ⟨f, _, rfl⟩ := List.mem_map.1 hn
    rfl

theorem directoryOutput_littered (litters : Litters s t) (rooted : s.Rooted) (way : Passable t cwd)
    (h : s.isDir cwd input) : directoryOutput t cwd input = directoryOutput s cwd input := by
  obtain ⟨_, _, hs⟩ := isDir_iff.1 h
  obtain ⟨_, k, _, hr⟩ := lookup_eq_ok.1 (stat?_eq_ok_iff_lookup.1 hs)
  rw [directoryOutput, directoryOutput, litters.canonical?_eq rooted way hr]

theorem isDir_littered (litters : Litters s t) (root : s.holdsDir []) (way : Passable t cwd)
    (h : s.isDir cwd input) : t.isDir cwd input := by
  obtain ⟨_, _, hs⟩ := isDir_iff.1 h
  exact isDir_iff.2 ⟨_, _, litters.stat?_littered root way hs⟩

/-- Litter adds no items, and keeps the others in their order. -/
theorem items_littered (litters : Litters s t) (wellNamed : s.WellNamed) (wellNamed' : t.WellNamed)
    (way : Passable t cwd) (h : s.isDir cwd input) (output : PathText) :
    (ofDirectory t cwd input output).items = (ofDirectory s cwd input output).items := by
  have h' := isDir_littered litters wellNamed.root way h
  obtain ⟨files, same, sorted, mem⟩ := Walk.exists_picked Walk.Finding.file? wellNamed output h
  obtain ⟨files', same', sorted', mem'⟩ := Walk.exists_picked Walk.Finding.file? wellNamed' output h'
  have equal : files' = files := by
    refine Walk.eq_of_sorted sorted' sorted fun x => ?_
    rw [mem', mem]
    refine exists_congr fun f => and_congr_right fun hf => ?_
    cases f with
    | fault f => cases hf
    | file path => exact Walk.reported_littered_iff litters wellNamed wellNamed' way
  rw [items_eq, items_eq, same, same', equal]

/-- When a plan is made for a directory, there is one warning for every link that the walk comes by and
that leads nowhere or back to where the walk is, and one for every directory whose path is too long; they
come in the order of the walk. What is no directory or regular file and leads to none, wherever it is
added, changes nothing about the items. -/
theorem ofInput_warnings (wellNamed : s.WellNamed) (h : s.isDir cwd input) :
    (∃ cause, Stranded s cwd input cause ∧ ofInput s cwd input = .error (.fileOpen input cause)) ∨
    ∃ plan, ofInput s cwd input = .ok plan ∧
      (∃ skips : List (List Name × WalkFault),
        plan.notices.filter (·.level = .warn) = skips.map (.skipped ·.2) ∧
        skips.Pairwise (fun x y => x.1.map Utf8.encode < y.1.map Utf8.encode) ∧
        ∀ ns f, (ns, f) ∈ skips ↔
          Walk.Skips s cwd (s.canonical? cwd plan.outputRoot).toOption input ns f) ∧
      ∀ t : Store, t.WellNamed → Passable t cwd → Litters s t →
        ∃ plan', ofInput t cwd input = .ok plan' ∧ plan'.items = plan.items := by
  rcases stranded_or_planned h with ⟨cause, stranded⟩ | ⟨output, ho, planned⟩
  · exact .inl ⟨cause, stranded, ofInput_of_stranded stranded⟩
  · refine .inr ⟨_, planned, ?_, fun t wellNamed' way litters => ?_⟩
    · obtain ⟨skips, faults, sorted, mem⟩ := Walk.exists_picked Walk.Finding.fault? wellNamed output h
      refine ⟨skips, ?_, sorted.imp Utf8.map_encode_lt_map_encode, fun ns f => ?_⟩
      · rw [filter_notices_ofDirectory, faults, List.map_map]
        rfl
      · rw [mem, ← Walk.reported_fault_iff wellNamed]
        constructor
        · rintro ⟨g, hg, reported⟩
          cases g with
          | file path => cases hg
          | fault g =>
            cases hg
            exact reported
        · exact fun reported => ⟨_, rfl, reported⟩
    · have output' := (directoryOutput_littered litters wellNamed.toRooted way h).trans ho
      have h' := isDir_littered litters wellNamed.root way h
      exact ⟨_, ofInput_of_directoryOutput h' output', items_littered litters wellNamed wellNamed' way h output⟩

/-- That tree with one more link, which leads nowhere. -/
def litteredTree : Store := Walk.knottedTree.put ([['i']] ++ [['x']]) (.link ['y'])

/-- The warnings about a tree with links of all kinds, and what is added to it. -/
theorem ofInput_warnings_knottedTree : Walk.knottedTree.WellNamed ∧ Walk.knottedTree.isDir [] ['i'] ∧
    ((∃ cause, Stranded Walk.knottedTree [] ['i'] cause ∧
        ofInput Walk.knottedTree [] ['i'] = .error (.fileOpen ['i'] cause)) ∨
      ∃ plan, ofInput Walk.knottedTree [] ['i'] = .ok plan ∧
        (∃ skips : List (List Name × WalkFault),
          plan.notices.filter (·.level = .warn) = skips.map (.skipped ·.2) ∧
          skips.Pairwise (fun x y => x.1.map Utf8.encode < y.1.map Utf8.encode) ∧
          ∀ ns f, (ns, f) ∈ skips ↔ Walk.Skips Walk.knottedTree []
            (Walk.knottedTree.canonical? [] plan.outputRoot).toOption ['i'] ns f) ∧
        ∀ t : Store, t.WellNamed → Passable t [] → Litters Walk.knottedTree t →
          ∃ plan', ofInput t [] ['i'] = .ok plan' ∧ plan'.items = plan.items) ∧
    litteredTree.WellNamed ∧ Passable litteredTree [] ∧ Litters Walk.knottedTree litteredTree := by
  have sound : Walk.knottedTree.Sound [] := .of_admits (by decide) (by decide) (by decide)
  have sound' : litteredTree.Sound [] := .of_admits (by decide) (by decide) (by decide)
  have dir : Walk.knottedTree.isDir [] ['i'] := by decide
  have litters : Litters Walk.knottedTree litteredTree := by
    have free : Walk.knottedTree.entry? ([['i']] ++ [['x']]) = none := by decide
    have lost : ¬litteredTree.isDir [['i']] ['x'] ∧ ¬litteredTree.isFile [['i']] ['x'] := by decide
    exact litters_put free rfl rfl fun _ _ => lost
  exact ⟨sound.wellNamed, dir, ofInput_warnings sound.wellNamed dir, sound'.wellNamed,
    sound'.passable, litters⟩

/-- A directory in the input whose path is too long is warned of. -/
theorem skipped_of_long (wellNamed : s.WellNamed) {location : Location} {mode mode' : Nat} {n : Name}
    (hs : s.stat? cwd input = .ok (location, .dir mode))
    (he : s.entry? (location ++ [n]) = some (.dir mode'))
    (long : pathLimit ≤ Utf8.byteLength (join input n))
    (outside : ∀ place, s.canonical? cwd output ≠ .ok place) :
    .skipped (.unreadable (join input n) (.os .nameTooLong)) ∈
      (ofDirectory s cwd input output).notices.filter (·.level = .warn) := by
  obtain ⟨skips, faults, _, mem⟩ :=
    Walk.exists_picked Walk.Finding.fault? wellNamed output (isDir_iff.2 ⟨_, _, hs⟩)
  have enters : Walk.Enters s cwd (s.canonical? cwd output).toOption ⟨location, input⟩ :=
    Walk.enters_toOption_iff.2 ⟨⟨_, hs⟩, fun ⟨place, hp, _⟩ => outside place hp⟩
  have skipped := Walk.Skips.long (.dir (.input hs) enters he)
    (fun place hp => absurd (Walk.toOption_eq_some.1 hp) (outside place)) long
  have reported := (Walk.reported_fault_iff wellNamed).2 skipped
  rw [filter_notices_ofDirectory, faults, List.map_map]
  exact List.mem_map.2 ⟨(_, _), (mem _).2 ⟨_, rfl, reported⟩, rfl⟩

/-- Two directories, one in the other. -/
def deepTree : Store := (empty.put [['i']] (.dir 0o755)).put [['i'], ['d']] (.dir 0o755)

/-- There is not one link in the tree, and still there is a warning: the path of the inner directory is too
long for it to be read. -/
theorem warned_without_link : (∀ loc target, deepTree.entry? loc ≠ some (.link target)) ∧
    deepTree.isDir [] (widePath 4094) ∧ ∃ plan, ofInput deepTree [] (widePath 4094) = .ok plan ∧
      .skipped (.unreadable (join (widePath 4094) ['d']) (.os .nameTooLong)) ∈
        plan.notices.filter (·.level = .warn) := by
  have sound : deepTree.Sound [] := .of_admits (by decide) (by decide) (by decide)
  have there : deepTree.stat? [] (widePath 4094) = .ok ([['i']], .dir 0o755) :=
    stat?_widePath (by decide) (by decide)
  have dir : deepTree.isDir [] (widePath 4094) := isDir_iff.2 ⟨_, _, there⟩
  refine ⟨fun loc target he => ?_, dir, ?_⟩
  · have kinds : deepTree.tree.entries.all (fun x => x.2.isDir) := by decide
    have isDir := List.all_eq_true.1 kinds _ (Tree.mem_entries he)
    cases isDir
  · have spelled : components (widePath 4094) = [] ++ [.name ['i']] :=
      components_separators (List.cons_ne_nil 'i' []) 4094
    have output := directoryOutput_of_components deepTree [] spelled
    have long : pathLimit ≤ Utf8.byteLength (join (widePath 4094) ['d']) := by
      rw [byteLength_join_widePath 4093 (by decide)]
      decide
    have free : ∀ place, deepTree.canonical? [] "i.src".toList ≠ .ok place := by
      intro place
      rw [show deepTree.canonical? [] "i.src".toList = .error (.os .noEntry) by decide]
      simp
    have entry : deepTree.entry? ([['i']] ++ [['d']]) = some (.dir 0o755) := by decide
    exact ⟨_, ofInput_of_directoryOutput dir output,
      skipped_of_long sound.wellNamed there entry long free⟩

end LuaTree.Plan

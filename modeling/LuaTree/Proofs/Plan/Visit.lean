import LuaTree.Plan.Walk
import LuaTree.Proofs.Store.Entries
import LuaTree.Proofs.Store.Joined

/-!
# Steps of the walk

What `visit` says of an entry, constructor by constructor (`visit_eq_enter`, `visit_eq_file`,
`visit_eq_fault`); which directories a walk reads (`Enters`); and how deep it gets (`Nested.length_le`).
Links may lead anywhere, so a directory can be above itself; but the links that a walk is inside of lead to
different directories, and between two of them it goes down real directories only.
-/

namespace LuaTree.Walk

open PathText Store

/-- Whether the walk lists the directory. -/
def Enters (s : Store) (cwd : Location) (leaveOut : Option PathText) (dir : Ancestor) : Prop :=
  (∃ mode, s.stat? cwd dir.path = .ok (dir.location, .dir mode)) ∧
    ∀ place, leaveOut = some place → s.canonical? cwd dir.path ≠ .ok place

/-- Directories that a walk is inside of, nearest first: each was entered by a name of the next. -/
inductive Nested (s : Store) (cwd : Location) : List Ancestor → Prop
  | root (dir : Ancestor) : Nested s cwd [dir]
  | next {dir inside n location} : Nested s cwd (dir :: inside) →
      visit s cwd inside dir n = .enter location →
      Nested s cwd (⟨location, join dir.path n⟩ :: dir :: inside)

variable {s : Store} {cwd : Location} {leaveOut : Option PathText} {inside : List Ancestor}
  {dir : Ancestor} {n : Name} {location : Location} {f : WalkFault}

/-! ## What is done with an entry -/

theorem visit_eq_enter : visit s cwd inside dir n = .enter location ↔
    (∃ mode, s.entry? (dir.location ++ [n]) = some (.dir mode)) ∧ location = dir.location ++ [n] ∨
    (∃ target, s.entry? (dir.location ++ [n]) = some (.link target)) ∧
      (∃ mode, s.stat? cwd (join dir.path n) = .ok (location, .dir mode)) ∧
      ∀ above ∈ dir :: inside, above.location ≠ location := by
  unfold visit
  dsimp only
  -- by what the entry is, and for a link by what it leads to
  split
  · next mode he => simp [he, eq_comm]
  · next i he => simp [he]
  · next target he =>
    simp only [he, Option.some.injEq, reduceCtorEq, exists_const, false_and, false_or,
      Entry.link.injEq, exists_eq', true_and]
    split
    · next hs => simp [hs]
    · next loc mode hs =>
      split
      · next above hf =>
        have found := List.find?_some hf
        have mem := List.mem_of_find?_eq_some hf
        simp only [hs, reduceCtorEq, Except.ok.injEq, Prod.mk.injEq, Entry.dir.injEq, false_iff]
        rintro ⟨⟨_, rfl, _⟩, hfree⟩
        exact hfree above mem (of_decide_eq_true found)
      · next hf =>
        simp only [List.find?_eq_none, decide_eq_true_eq] at hf
        simp only [hs, Visit.enter.injEq, Except.ok.injEq, Prod.mk.injEq, Entry.dir.injEq]
        constructor
        · rintro rfl
          exact ⟨⟨mode, rfl, rfl⟩, hf⟩
        · rintro ⟨⟨_, rfl, _⟩, _⟩
          rfl
    · next hs => simp [hs]
    · next hd hf hs =>
      simp only [reduceCtorEq, false_iff]
      rintro ⟨⟨mode, h⟩, _⟩
      exact hd _ _ (Except.ok.inj (hs.symm.trans h))
  · next hd hf hl =>
    simp only [reduceCtorEq, false_iff]
    rintro (⟨⟨mode, he⟩, _⟩ | ⟨⟨target, he⟩, _⟩)
    · exact hd _ he
    · exact hl _ he

theorem visit_eq_file {path : PathText} : visit s cwd inside dir n = .report (.file path) ↔
    path = join dir.path n ∧ ((∃ i, s.entry? (dir.location ++ [n]) = some (.file i)) ∨
      (∃ target, s.entry? (dir.location ++ [n]) = some (.link target)) ∧
        s.isFile cwd (join dir.path n)) := by
  rw [isFile_iff]
  unfold visit
  dsimp only
  split
  · next he => simp [he]
  · next he => simp [he, eq_comm]
  · next target he =>
    simp only [he, Option.some.injEq, reduceCtorEq, exists_const, false_or, Entry.link.injEq,
      exists_eq', true_and]
    split
    · next hs => simp [hs]
    · next hs => split <;> simp [hs]
    · next loc i hs => simp [hs, eq_comm]
    · next hd hf hs =>
      simp only [reduceCtorEq, false_iff, not_and, not_exists]
      intro _ loc i h
      exact hf _ _ (Except.ok.inj (hs.symm.trans h))
  · next hd hf hl =>
    simp only [reduceCtorEq, false_iff, not_and, not_or, not_exists]
    exact fun _ => ⟨fun i he => hf _ he, fun ⟨target, he⟩ => absurd he (hl target)⟩

theorem find?_ancestor_iff {above : Ancestor} {location : Location} {dirs : List Ancestor} :
    dirs.find? (fun a => a.location = location) = some above ↔ ∃ nearer further,
      dirs = nearer ++ above :: further ∧ above.location = location ∧
        ∀ a ∈ nearer, a.location ≠ location := by
  rw [List.find?_eq_some_iff_append]
  simp only [decide_eq_true_eq, Bool.not_eq_true', decide_eq_false_iff_not]
  constructor
  · rintro ⟨same, nearer, further, split, free⟩
    exact ⟨nearer, further, split, same, free⟩
  · rintro ⟨nearer, further, split, same, free⟩
    exact ⟨same, nearer, further, split, free⟩

/-- Only links are warned of when a directory has been read. -/
theorem visit_eq_fault : visit s cwd inside dir n = .report (.fault f) ↔
    (∃ target, s.entry? (dir.location ++ [n]) = some (.link target)) ∧
      ((∃ cause, s.stat? cwd (join dir.path n) = .error cause ∧ f = .unreadable (join dir.path n) cause) ∨
      ∃ location mode above, s.stat? cwd (join dir.path n) = .ok (location, .dir mode) ∧
        (dir :: inside).find? (fun a => a.location = location) = some above ∧
        f = .loop (join dir.path n) above.path) := by
  unfold visit
  dsimp only
  split
  · next he => simp [he]
  · next he => simp [he]
  · next target he =>
    simp only [he, Option.some.injEq, Entry.link.injEq, exists_eq', true_and]
    split
    · next cause hs => simp [hs, eq_comm]
    · next location mode hs =>
      simp only [hs, reduceCtorEq, false_and, exists_false, false_or, Except.ok.injEq, Prod.mk.injEq,
        Entry.dir.injEq]
      split
      · next above hf =>
        simp only [Visit.report.injEq, Finding.fault.injEq]
        constructor
        · rintro rfl
          exact ⟨_, _, above, ⟨rfl, rfl⟩, hf, rfl⟩
        · rintro ⟨_, _, _, ⟨rfl, rfl⟩, hf', rfl⟩
          cases hf.symm.trans hf'
          rfl
      · next hf =>
        simp only [reduceCtorEq, false_iff]
        rintro ⟨_, _, _, ⟨rfl, rfl⟩, hf', _⟩
        cases hf.symm.trans hf'
    · next hs => simp [hs]
    · next hd _ hs =>
      simp only [hs, reduceCtorEq, false_and, exists_false, false_or, false_iff]
      rintro ⟨_, _, _, heq, _⟩
      exact hd _ _ (Except.ok.inj heq)
  · next hd hf hl =>
    simp only [reduceCtorEq, false_iff, not_and]
    exact fun ⟨target, he⟩ => absurd he (hl target)

/-! ## Directories that are read -/

theorem list?_eq_ok {p : PathText} {names : List Name} : s.list? cwd p = .ok names ↔
    ∃ location mode, s.stat? cwd p = .ok (location, .dir mode) ∧ names = s.names location := by
  unfold list?
  cases hs : s.stat? cwd p with
  | error cause => simp [bind, Except.bind]
  | ok place =>
    obtain ⟨location, e⟩ := place
    cases e <;> simp [bind, Except.bind, pure, Except.pure, throw, throwThe, MonadExceptOf.throw, eq_comm]

theorem list?_of_enters (enters : Enters s cwd leaveOut dir) :
    s.list? cwd dir.path = .ok (s.names dir.location) := by
  obtain ⟨⟨mode, hs⟩, _⟩ := enters
  exact list?_eq_ok.2 ⟨_, mode, hs, rfl⟩

theorem pairwise_of_list? {p : PathText} {names : List Name} (h : s.list? cwd p = .ok names) :
    names.Pairwise (· < ·) := by
  obtain ⟨location, _, _, rfl⟩ := list?_eq_ok.1 h
  exact s.pairwise_names location

/-- The walk leaves a directory out where its path and that of the output mean the same place. -/
theorem isLeftOut_iff {p : PathText} :
    (leaveOut.isSome && (s.canonical? cwd p).toOption = leaveOut) = true ↔
      ∃ place, leaveOut = some place ∧ s.canonical? cwd p = .ok place := by
  cases leaveOut with
  | none => simp
  | some place => cases s.canonical? cwd p <;> simp [Except.toOption]

theorem not_isLeftOut_iff {p : PathText} :
    ¬(leaveOut.isSome && (s.canonical? cwd p).toOption = leaveOut) = true ↔
      ∀ place, leaveOut = some place → s.canonical? cwd p ≠ .ok place := by
  rw [isLeftOut_iff, not_exists]
  exact forall_congr' fun place => not_and

theorem Enters.not_isLeftOut (enters : Enters s cwd leaveOut dir) :
    ¬(leaveOut.isSome && (s.canonical? cwd dir.path).toOption = leaveOut) = true :=
  not_isLeftOut_iff.2 enters.2

theorem toOption_eq_some {ε α : Type} {x : Except ε α} {a : α} : x.toOption = some a ↔ x = .ok a := by
  cases x <;> simp [Except.toOption]

theorem enters_toOption_iff {output : PathText} :
    Enters s cwd (s.canonical? cwd output).toOption dir ↔
      (∃ mode, s.stat? cwd dir.path = .ok (dir.location, .dir mode)) ∧
        ¬∃ place, s.canonical? cwd output = .ok place ∧ s.canonical? cwd dir.path = .ok place := by
  simp only [Enters, toOption_eq_some, not_exists, not_and, ne_eq]

/-! ## How deep a walk gets -/

/-- What a walk takes a name from is a directory. -/
theorem holdsDir_of_visit (rooted : s.Rooted) (hv : visit s cwd inside dir n = .enter location) :
    s.holdsDir dir.location := by
  rcases visit_eq_enter.1 hv with ⟨⟨mode, he⟩, _⟩ | ⟨⟨target, he⟩, _⟩
  · exact rooted.parent he
  · exact rooted.parent he

/-- The links that a walk is inside of lead to different directories, and from each of them it goes down
real directories as far as the next. -/
theorem Nested.exists_jumps (rooted : s.Rooted) (h : Nested s cwd (dir :: inside))
    (there : s.holdsDir dir.location) : ∃ jumps : List Location, jumps.Nodup ∧
      (∀ loc ∈ jumps, s.holdsDir loc ∧ ∃ above ∈ dir :: inside, above.location = loc) ∧
      (dir :: inside).length ≤ jumps.length * s.dirCount + dir.location.length + 1 := by
  generalize hd : dir :: inside = dirs at h
  induction h generalizing dir inside with
  | root top =>
    cases hd
    refine ⟨[], List.nodup_nil, fun loc hl => absurd hl List.not_mem_nil, ?_⟩
    simp
  | @next below rest n location h hv ih =>
    cases hd
    have real := holdsDir_of_visit rooted hv
    have low := length_lt_dirCount rooted real
    obtain ⟨jumps, distinct, dirs, bound⟩ := ih real rfl
    have higher : ∀ loc ∈ jumps, s.holdsDir loc ∧
        ∃ above ∈ ⟨location, join below.path n⟩ :: below :: rest, above.location = loc := by
      intro loc hl
      obtain ⟨hd, above, hmem, heq⟩ := dirs loc hl
      exact ⟨hd, above, List.mem_cons_of_mem _ hmem, heq⟩
    rcases visit_eq_enter.1 hv with ⟨_, rfl⟩ | ⟨_, _, free⟩
    · -- one real directory further down
      refine ⟨jumps, distinct, higher, ?_⟩
      simp only [List.length_cons, List.length_append, List.length_nil] at bound ⊢
      omega
    · -- a link, to a directory that is not on the stack
      have new : location ∉ jumps := by
        intro hl
        obtain ⟨_, above, hmem, heq⟩ := dirs location hl
        exact free above hmem heq
      refine ⟨location :: jumps, List.nodup_cons.2 ⟨new, distinct⟩, fun loc hl => ?_, ?_⟩
      · rcases List.mem_cons.1 hl with rfl | hl
        · exact ⟨there, _, List.mem_cons_self, rfl⟩
        · exact higher loc hl
      · simp only [List.length_cons, Nat.succ_mul] at bound ⊢
        omega

theorem Nested.length_le_of_holdsDir (rooted : s.Rooted) (h : Nested s cwd (dir :: inside))
    (there : s.holdsDir dir.location) :
    (dir :: inside).length ≤ s.dirCount * s.dirCount + s.dirCount := by
  obtain ⟨jumps, distinct, dirs, bound⟩ := h.exists_jumps rooted there
  have few := length_le_dirCount distinct fun loc hl => (dirs loc hl).1
  have low := length_lt_dirCount rooted there
  have most := Nat.mul_le_mul_right s.dirCount few
  omega

/-- However the links lead, a walk gets no deeper than it may. -/
theorem Nested.length_le (rooted : s.Rooted) {dirs : List Ancestor} (h : Nested s cwd dirs) :
    dirs.length ≤ depthLimit s := by
  have square : depthLimit s = s.dirCount * s.dirCount + s.dirCount + s.dirCount + 1 := by
    rw [depthLimit, Nat.succ_mul, Nat.mul_succ]
    omega
  cases h with
  | root dir =>
    rw [List.length_singleton]
    omega
  | @next below rest n location h hv =>
    -- what is on top may be a directory that has been removed, but the one below is there
    have under := h.length_le_of_holdsDir rooted (holdsDir_of_visit rooted hv)
    rw [List.length_cons]
    omega

end LuaTree.Walk

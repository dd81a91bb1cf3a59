import LuaTree.Proofs.Plan.Visit

/-!
# The walk, entry by entry

`findings` bounds its depth, and nothing says at first sight that the bound is never met. A `Traversal`
has no bound: it is a stack of directories with the names still ahead in each, and a step takes the next
name.

* `Traversal.going_step`: a step keeps the stack `Nested`, so that it never grows past the bound;
* `Traversal.comes_directory`: a directory at the top of the stack is gone through, with the findings of
  `findingsWithin`;
* `traversal_ends`: the whole walk.
-/

namespace LuaTree.Walk

open PathText Store

/-- A directory that a walk is inside of. -/
structure Frame where
  dir : Ancestor
  /-- The names that are still ahead; none before the directory has been read. -/
  ahead : Option (List Name)

/-- A walk on its way: the directories that it is inside of, nearest first, and what it has met. -/
structure Traversal where
  stack : List Frame
  met : List Finding

namespace Traversal

/-- A walk that is about to enter `root`. -/
def begin (s : Store) (cwd : Location) (root : PathText) : Traversal :=
  match s.stat? cwd root with
  | .error cause => ⟨[], [.fault (.unreadable root cause)]⟩
  | .ok (location, _) => ⟨[⟨⟨location, root⟩, none⟩], []⟩

/-- Reads the directory at the top, takes its next name, or leaves it. -/
def step (s : Store) (cwd : Location) (leaveOut : Option PathText) (w : Traversal) : Traversal :=
  match w.stack with
  | [] => w
  | ⟨dir, none⟩ :: below =>
    if leaveOut.isSome && (s.canonical? cwd dir.path).toOption = leaveOut then ⟨below, w.met⟩
    else
      match s.list? cwd dir.path with
      | .error cause => ⟨below, w.met ++ [.fault (.unreadable dir.path cause)]⟩
      | .ok names => ⟨⟨dir, some names⟩ :: below, w.met⟩
  | ⟨_, some []⟩ :: below => ⟨below, w.met⟩
  | ⟨dir, some (n :: names)⟩ :: below =>
    let stack := ⟨dir, some names⟩ :: below
    match visit s cwd (below.map (·.dir)) dir n with
    | .enter location => ⟨⟨⟨location, join dir.path n⟩, none⟩ :: stack, w.met⟩
    | .report f => ⟨stack, w.met ++ [f]⟩
    | .ignore => ⟨stack, w.met⟩

def run (s : Store) (cwd : Location) (leaveOut : Option PathText) : Nat → Traversal → Traversal
  | 0, w => w
  | k + 1, w => run s cwd leaveOut k (step s cwd leaveOut w)

end Traversal

variable {s : Store} {cwd : Location} {leaveOut : Option PathText} {inside : List Ancestor}
  {dir : Ancestor} {n : Name} {location : Location}

theorem Nested.pop (h : Nested s cwd (dir :: inside)) : inside = [] ∨ Nested s cwd inside := by
  cases h with
  | root => exact .inl rfl
  | next h _ => exact .inr h

/-! ## What a step keeps -/

namespace Traversal

variable {w : Traversal} {below : List Frame} {met : List Finding}

/-- The directories that the walk is inside of, nearest first. -/
def dirs (w : Traversal) : List Ancestor := w.stack.map (·.dir)

/-- What is on the stack of a walk at any time. -/
def Going (s : Store) (cwd : Location) (w : Traversal) : Prop := w.dirs = [] ∨ Nested s cwd w.dirs

theorem going_begin (s : Store) (cwd : Location) (root : PathText) : (begin s cwd root).Going s cwd := by
  unfold begin
  split
  · exact .inl rfl
  · exact .inr (.root _)

theorem going_step (h : w.Going s cwd) : (step s cwd leaveOut w).Going s cwd := by
  obtain ⟨stack, met⟩ := w
  cases stack with
  | nil => exact h
  | cons frame below =>
    have nested : Nested s cwd (frame.dir :: below.map (·.dir)) :=
      h.resolve_left (List.cons_ne_nil _ _)
    obtain ⟨dir, ahead⟩ := frame
    match ahead with
    | none =>
      unfold step
      dsimp only
      split
      · exact nested.pop
      · split
        · exact nested.pop
        · exact .inr nested
    | some [] => exact nested.pop
    | some (n :: names) =>
      unfold step
      dsimp only
      split
      · next location hv => exact .inr (.next nested hv)
      · exact .inr nested
      · exact .inr nested

theorem going_run (k : Nat) (h : w.Going s cwd) : (run s cwd leaveOut k w).Going s cwd := by
  induction k generalizing w with
  | zero => exact h
  | succ k ih => exact ih (going_step h)

theorem Going.length_le (rooted : s.Rooted) (h : w.Going s cwd) : w.stack.length ≤ depthLimit s := by
  have height : w.stack.length = w.dirs.length := (List.length_map _).symm
  rw [height]
  rcases h with h | h
  · rw [h]
    exact Nat.zero_le _
  · exact h.length_le rooted

/-! ## Going through a directory -/

/-- Sooner or later the walk is there. -/
def Comes (s : Store) (cwd : Location) (leaveOut : Option PathText) (w w' : Traversal) : Prop :=
  ∃ k, run s cwd leaveOut k w = w'

theorem Comes.next {v w' : Traversal} (hs : step s cwd leaveOut w = v) (h : Comes s cwd leaveOut v w') :
    Comes s cwd leaveOut w w' := by
  obtain ⟨k, hk⟩ := h
  refine ⟨k + 1, ?_⟩
  rw [run, hs, hk]

theorem run_add (j k : Nat) :
    run s cwd leaveOut (j + k) w = run s cwd leaveOut k (run s cwd leaveOut j w) := by
  induction j generalizing w with
  | zero => rw [Nat.zero_add, run]
  | succ j ih => rw [Nat.succ_add, run, run, ih]

theorem Comes.trans {v w' : Traversal} (h : Comes s cwd leaveOut w v) (h' : Comes s cwd leaveOut v w') :
    Comes s cwd leaveOut w w' := by
  obtain ⟨j, rfl⟩ := h
  obtain ⟨k, hk⟩ := h'
  exact ⟨j + k, (run_add j k).trans hk⟩

/-- The names ahead in a directory are gone through one by one. -/
theorem comes_names (f : Name → List Finding) (each : ∀ n names met, Comes s cwd leaveOut
      ⟨⟨dir, some (n :: names)⟩ :: below, met⟩ ⟨⟨dir, some names⟩ :: below, met ++ f n⟩)
    (names : List Name) (met : List Finding) : Comes s cwd leaveOut
      ⟨⟨dir, some names⟩ :: below, met⟩ ⟨below, met ++ names.flatMap f⟩ := by
  induction names generalizing met with
  | nil =>
    rw [List.flatMap_nil, List.append_nil]
    exact ⟨1, rfl⟩
  | cons n names ih =>
    rw [List.flatMap_cons, ← List.append_assoc]
    exact (each n names met).trans (ih _)

/-- A directory on top of the stack is gone through, if what is below leaves the walk deep enough. -/
theorem comes_directory (rooted : s.Rooted) (depth : Nat)
    (nested : Nested s cwd (dir :: below.map (·.dir)))
    (deep : depthLimit s ≤ depth + below.length) (met : List Finding) : Comes s cwd leaveOut
      ⟨⟨dir, none⟩ :: below, met⟩
      ⟨below, met ++ findingsWithin s cwd leaveOut depth (below.map (·.dir)) dir⟩ := by
  induction depth generalizing dir below met with
  | zero =>
    -- no walk is nested as deeply as that, so that the limit is never what ends one
    have height := nested.length_le rooted
    rw [List.length_cons, List.length_map] at height
    omega
  | succ depth ih =>
    rw [findingsWithin]
    by_cases out : (leaveOut.isSome && (s.canonical? cwd dir.path).toOption = leaveOut)
    · rw [if_pos out, List.append_nil]
      exact .next (if_pos out) ⟨0, rfl⟩
    rw [if_neg out]
    cases hl : s.list? cwd dir.path with
    | error cause =>
      refine .next ?_ ⟨0, rfl⟩
      rw [step]
      dsimp only
      rw [if_neg out, hl]
    | ok names =>
      have read : step s cwd leaveOut ⟨⟨dir, none⟩ :: below, met⟩ =
          ⟨⟨dir, some names⟩ :: below, met⟩ := by
        rw [step]
        dsimp only
        rw [if_neg out, hl]
      refine Comes.next read (comes_names _ (fun n names met => ?_) names met)
      cases hv : visit s cwd (below.map (·.dir)) dir n with
      | ignore =>
        refine .next ?_ ⟨0, rfl⟩
        simp only [step, hv, List.append_nil]
      | report f =>
        refine .next ?_ ⟨0, rfl⟩
        simp only [step, hv]
      | enter location =>
        have entered : step s cwd leaveOut ⟨⟨dir, some (n :: names)⟩ :: below, met⟩ =
            ⟨⟨⟨location, join dir.path n⟩, none⟩ :: ⟨dir, some names⟩ :: below, met⟩ := by
          simp only [step, hv]
        -- what is entered is gone through with one more directory below it, hence `deep`
        refine Comes.next entered (ih (.next nested hv) ?_ met)
        rw [List.length_cons]
        omega

theorem run_of_done (h : w.stack = []) (k : Nat) : run s cwd leaveOut k w = w := by
  induction k with
  | zero => rfl
  | succ k ih =>
    have still : step s cwd leaveOut w = w := by
      rw [step, h]
    rw [run, still, ih]

theorem comes_findings (rooted : s.Rooted) (cwd : Location) (input output : PathText) :
    Comes s cwd (s.canonical? cwd output).toOption (begin s cwd input)
      ⟨[], findings s cwd input output⟩ := by
  unfold begin findings
  cases s.stat? cwd input with
  | error cause => exact ⟨0, rfl⟩
  | ok place => exact comes_directory rooted _ (.root _) (Nat.le_add_right _ _) []

end Traversal

/-- The walk ends, whatever the links do: after some number of steps it is through, with the findings, and
at no time is it inside of more directories than a number that the directories of the store give. -/
theorem traversal_ends (rooted : s.Rooted) (cwd : Location) (input output : PathText) :
    let walked := fun k =>
      Traversal.run s cwd (s.canonical? cwd output).toOption k (Traversal.begin s cwd input)
    ∃ count, (∀ k, count ≤ k → walked k = ⟨[], findings s cwd input output⟩) ∧
      ∀ k, (walked k).stack.length ≤ (s.dirCount + 1) * (s.dirCount + 1) := by
  intro walked
  obtain ⟨count, done⟩ := Traversal.comes_findings rooted cwd input output
  refine ⟨count, fun k hk => ?_, fun k => ?_⟩
  · obtain ⟨more, rfl⟩ := Nat.exists_eq_add_of_le hk
    show Traversal.run s cwd _ (count + more) _ = _
    rw [Traversal.run_add, done]
    exact Traversal.run_of_done rfl more
  · exact (Traversal.going_run k (Traversal.going_begin s cwd input)).length_le rooted

/-- An input with a link to itself, links of two directories to each other, a link to the input, links to
links, and a link to the output directory. -/
def knottedTree : Store :=
  (((((((((((Store.empty.put [['i']] (.dir 0o755)).put [['i'], ['s']] (.link ['s'])).put [['i'], ['d']]
    (.dir 0o755)).put [['i'], ['d'], ['e']] (.link "../e".toList)).put [['i'], ['e']] (.dir 0o755)).put
    [['i'], ['e'], ['d']] (.link "../d".toList)).put [['i'], ['e'], ['u']] (.link "..".toList)).put
    [['i'], ['a']] (.link ['b'])).put [['i'], ['b']] (.link ['d'])).putFile [['i'], ['d'], ['f']]
    ⟨[7], 0o644⟩).put [['i', '.', 's', 'r', 'c']] (.dir 0o755)).put [['i'], ['o']]
    (.link "../i.src".toList)

/-- The walk through all these links ends. -/
theorem traversal_ends_knottedTree : knottedTree.Rooted ∧
    ∃ count, (∀ k, count ≤ k → Traversal.run knottedTree []
        (knottedTree.canonical? [] "i.src".toList).toOption k (Traversal.begin knottedTree [] ['i']) =
          ⟨[], findings knottedTree [] ['i'] "i.src".toList⟩) ∧
      ∀ k, (Traversal.run knottedTree [] (knottedTree.canonical? [] "i.src".toList).toOption k
        (Traversal.begin knottedTree [] ['i'])).stack.length ≤ 36 := by
  have sound : knottedTree.Sound [] := .of_admits (by decide) (by decide) (by decide)
  exact ⟨sound.toRooted, traversal_ends sound.toRooted [] ['i'] "i.src".toList⟩

end LuaTree.Walk

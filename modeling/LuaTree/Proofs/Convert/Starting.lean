import LuaTree.Exec.Launch
import LuaTree.Proofs.Convert.Runs

/-!
# Runtimes that cannot be started

The machine that runtimes run on starts a process, unless a text cannot be handed over, the directory is
none, or the program is not found; then it leaves the store alone (`Exec.launch_cases`). The arguments have no
part in that, so a runtime that cannot be started for one source cannot be started for another one either
(`Unstarted.of_source`). What becomes of a compiled chunk then is a failure of its own that names the
runtime, and nothing has changed but the directories above its destination (`convertItem_of_unstarted`).
-/

namespace LuaTree

open PathText Store

namespace Exec

variable {s : Store} {cwd : Location} {e : Errno} {file name name' : Raw} {arguments arguments' : List Raw}
  {i : Invocation} {cause : IoError}

/-! ## Finding the program -/

/-- What a program is started with makes no difference to whether its file can be run. -/
theorem loadAt_eq_error (depth : Nat) (h : loadAt s cwd depth file name arguments = .error e) :
    loadAt s cwd depth file name' arguments' = .error e := by
  induction depth generalizing file name name' arguments arguments' with
  | zero => exact h
  | succ depth ih =>
    unfold loadAt at h ⊢
    by_cases empty : file = []
    · rw [if_pos empty] at h ⊢
      exact h
    · rw [if_neg empty] at h ⊢
      cases hi : image s cwd (Raw.path file) with
      | error e' =>
        rw [hi] at h
        exact h
      | ok found =>
        rw [hi] at h
        cases found with
        | native native => cases h
        | script interpreter argument? => exact ih h

theorem search_eq_error {load load' : Raw → Except Errno Loaded}
    (same : ∀ file e, load file = .error e → load' file = .error e) (dirs : List Raw) (otherwise : Errno)
    (h : search load name otherwise dirs = .error e) : search load' name otherwise dirs = .error e := by
  induction dirs generalizing otherwise with
  | nil => exact h
  | cons dir dirs ih =>
    unfold search at h ⊢
    cases hl : load (candidate dir name) with
    | ok loaded =>
      rw [hl] at h
      cases h
    | error e' =>
      rw [hl] at h
      rw [same _ _ hl]
      dsimp only at h ⊢
      by_cases denied : e' = .denied
      · rw [if_pos denied] at h ⊢
        exact ih _ h
      · rw [if_neg denied] at h ⊢
        by_cases missing : e' = .noEntry ∨ e' = .notDirectory
        · rw [if_pos missing] at h ⊢
          exact ih _ h
        · rw [if_neg missing] at h ⊢
          exact h

theorem find_eq_error {path : Raw} (h : find s cwd path name arguments = .error e) :
    find s cwd path name arguments' = .error e := by
  unfold find findBy at h ⊢
  by_cases empty : name = []
  · rw [if_pos empty] at h ⊢
    exact h
  rw [if_neg empty] at h ⊢
  by_cases separated : name.contains '/'
  · rw [if_pos separated] at h ⊢
    exact loadAt_eq_error 6 h
  rw [if_neg separated] at h ⊢
  by_cases long : nameLimit < name.length
  · rw [if_pos long] at h ⊢
    exact h
  rw [if_neg long] at h ⊢
  exact search_eq_error (fun file e => loadAt_eq_error 6) _ _ h

/-! ## Starting it -/

/-- All texts of an invocation can be handed over. -/
def Handed (i : Invocation) : Prop :=
  isClean i.program ∧ i.arguments.all isClean ∧ isClean i.directory

/-- Why a process is not started. -/
inductive Unstarted (s : Store) (cwd : Location) (i : Invocation) : IoError → Prop
  | unclean : ¬Handed i → Unstarted s cwd i (.refused "nul byte found in provided data")
  | lost {why} : Handed i → s.stat? cwd i.directory = .error why → Unstarted s cwd i why
  | outside {loc f} : Handed i → s.stat? cwd i.directory = .ok (loc, f) → f.isDir = false →
      Unstarted s cwd i (.os .notDirectory)
  | missing {dir mode why} : Handed i → s.stat? cwd i.directory = .ok (dir, .dir mode) →
      find s dir searchPath (Raw.ofPath i.program) (i.arguments.map Raw.ofPath) = .error why →
      Unstarted s cwd i (.os why)

theorem launch_of_handed (h : Handed i) (s : Store) (cwd : Location) : launch s cwd i =
    match s.stat? cwd i.directory with
    | .error e => (.error e, s)
    | .ok (dir, .dir _) =>
      match find s dir searchPath (Raw.ofPath i.program) (i.arguments.map Raw.ofPath) with
      | .error e => (.error (.os e), s)
      | .ok loaded => (.ok (execute s dir loaded).1, (execute s dir loaded).2)
    | .ok _ => (.error (.os .notDirectory), s) := by
  obtain ⟨program, arguments, directory⟩ := h
  unfold launch
  exact if_neg (by rw [program, arguments, directory]; decide)

theorem launch_of_not_handed (h : ¬Handed i) (s : Store) (cwd : Location) :
    launch s cwd i = (.error (.refused "nul byte found in provided data"), s) := by
  unfold launch
  refine if_pos ?_
  rw [Bool.not_eq_true', ← Bool.not_eq_true, Bool.and_eq_true, Bool.and_eq_true, and_assoc]
  exact h

/-- A process is not started, and then nothing has happened, or its program runs in its directory. -/
theorem launch_cases (s : Store) (cwd : Location) (i : Invocation) :
    (∃ cause, Unstarted s cwd i cause ∧ launch s cwd i = (.error cause, s)) ∨
    ∃ dir mode loaded, s.stat? cwd i.directory = .ok (dir, .dir mode) ∧
      find s dir searchPath (Raw.ofPath i.program) (i.arguments.map Raw.ofPath) = .ok loaded ∧
      launch s cwd i = (.ok (execute s dir loaded).1, (execute s dir loaded).2) := by
  by_cases handed : Handed i
  · rw [launch_of_handed handed]
    cases hs : s.stat? cwd i.directory with
    | error cause => exact .inl ⟨cause, .lost handed hs, rfl⟩
    | ok found =>
      obtain ⟨dir, f⟩ := found
      cases f with
      | dir mode =>
        dsimp only
        cases hf : find s dir searchPath (Raw.ofPath i.program) (i.arguments.map Raw.ofPath) with
        | error e => exact .inl ⟨_, .missing handed hs hf, rfl⟩
        | ok loaded => exact .inr ⟨dir, mode, loaded, rfl, hf, rfl⟩
      | file _ | link _ | fifo | device _ => exact .inl ⟨_, .outside handed hs rfl, rfl⟩
  · exact .inl ⟨_, .unclean handed, launch_of_not_handed handed s cwd⟩

theorem launch_of_unstarted (h : Unstarted s cwd i cause) : launch s cwd i = (.error cause, s) := by
  cases h with
  | unclean broken => exact launch_of_not_handed broken s cwd
  | lost handed hs => rw [launch_of_handed handed, hs]
  | @outside loc f handed hs other =>
    rw [launch_of_handed handed, hs]
    cases f with
    | dir mode => cases other
    | file _ | link _ | fifo | device _ => rfl
  | missing handed hs hf =>
    rw [launch_of_handed handed, hs]
    dsimp only
    rw [hf]

theorem handed_invocation_iff {tool : Tool} {source other : PathText} (clean : isClean source)
    (clean' : isClean other) : Handed (tool.invocation other) ↔ Handed (tool.invocation source) := by
  simp only [Handed, Tool.invocation, List.all_cons, List.all_nil, clean, clean']

/-- A runtime that is not started for one source is not started for another. -/
theorem Unstarted.of_source {tool : Tool} {source other : PathText}
    (h : Unstarted s cwd (tool.invocation source) cause) (clean : isClean source) (clean' : isClean other) :
    Unstarted s cwd (tool.invocation other) cause := by
  have same : Handed (tool.invocation other) ↔ Handed (tool.invocation source) :=
    handed_invocation_iff clean clean'
  cases h with
  | unclean broken => exact .unclean fun handed => broken (same.1 handed)
  | lost handed hs => exact .lost (same.2 handed) hs
  | outside handed hs other => exact .outside (same.2 handed) hs other
  | missing handed hs hf => exact .missing (same.2 handed) hs (find_eq_error hf)

end Exec

open Exec

/-! ## Items -/

variable {s t : Store} {cwd : Location} {item : WorkItem} {tool : Tool} {full : PathText} {cause : IoError}

/-- A compiled chunk whose runtime cannot be started fails by itself, and nothing has changed since the
directories above its destination were created. -/
theorem convertItem_of_unstarted (prepared : ensureParent s cwd item.destination = (.ok (), t))
    (compiled : Chunk.isCompiled t cwd item.source = .ok true)
    (absolute : Tool.decompiler.absolute cwd t item.source = .ok full)
    (unstarted : Unstarted t cwd (tool.invocation full) cause) :
    convertItem (tool.decompiler launch cwd) cwd s item =
      ⟨⟨item, .error (.decompilerSpawn tool.runtime cause)⟩, t,
        [.decompiling item.source, .running tool.runtime tool.archive full]⟩ := by
  have answer : (tool.decompiler launch cwd).decompile t item.source =
      { result := .error (.decompilerSpawn tool.runtime cause), store := t
        notices := [.running tool.runtime tool.archive full] } := by
    unfold Tool.decompiler
    dsimp only
    rw [absolute]
    dsimp only
    rw [launch_of_unstarted unstarted]
    rfl
  rw [convertItem_of_compiled prepared compiled, answer]

end LuaTree

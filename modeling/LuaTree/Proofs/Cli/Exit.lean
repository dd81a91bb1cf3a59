import LuaTree.Proofs.Cli.Session

/-!
# What is fatal

An input that leads neither to a directory nor to a regular file is refused with the one error that names
it, and no other input is refused, whatever becomes of its files (`fatal_iff`). There is one exception, a
directory without a name of its own that cannot be written out either (`Stranded`). It is refused as a file
that cannot be opened, and it is the only input that makes the program fail.
-/

namespace LuaTree.Cli

open PathText Store Plan

variable {host : Host} {s : Store} {settings : Settings} {arguments : List PathText}

/-- A conversion fails with the errors of its plan and no others: none comes from an item. -/
theorem convertPath_eq_error {d : Decompiler} {cwd : Location} {jobs : Nat} {input : PathText}
    {e : Error} : convertPath d cwd jobs s input = .error e ↔ Plan.ofInput s cwd input = .error e := by
  unfold convertPath
  cases Plan.ofInput s cwd input with
  | error _ => simp [Except.map]
  | ok plan => simp [Except.map]

/-- A session with a tool fails on a stranded input only. -/
theorem failure_convertBy (converter : Converter) (told : (tool host settings).isOk) :
    (convertBy converter host s settings).failure.isNone ↔
      ¬∃ cause, Stranded s host.cwd settings.input cause := by
  cases planned : Plan.ofInput s host.cwd settings.input with
  | error e =>
    rcases ofInput_eq_error.1 planned with ⟨hd, _, rfl⟩ | ⟨cause, stranded, rfl⟩
    · rw [convertBy_of_unusable converter planned]
      refine ⟨?_, fun _ => rfl⟩
      rintro - ⟨_, h⟩
      exact hd h.dir
    · rw [convertBy_of_stranded converter stranded]
      refine ⟨fun h => ?_, fun h => absurd ⟨cause, stranded⟩ h⟩
      cases h
  | ok plan =>
    have settled : ¬∃ cause, Stranded s host.cwd settings.input cause := by
      rintro ⟨cause, h⟩
      cases planned.symm.trans (ofInput_of_stranded h)
    cases ht : tool host settings with
    | error e =>
      rw [ht] at told
      cases told
    | ok t =>
      rw [convertBy_of_plan converter planned ht rfl]
      exact ⟨fun _ => settled, fun _ => rfl⟩

/-- Only an input that cannot be used is fatal. For every store, working directory and input:

* there is no plan just if the input leads neither to a directory nor to a regular file, or is stranded;
  the error names the input, and is the one for unusable inputs unless the input is stranded;
* what strands an input is that the working directory it is relative to has been removed, or that the text
  of a location is too long to be looked up;
* empty paths, paths with a NUL and files with a separator behind them lead to neither;
* whatever the decompiler, a conversion fails when there is no plan, in the same way, and never
  otherwise;
* the program, once it has read its arguments and has a tool, ends with exit code 0 unless the input is
  stranded; where there is no plan it leaves the store alone. -/
theorem fatal_iff (s : Store) (cwd : Location) (input : PathText) :
    (∀ e, Plan.ofInput s cwd input = .error e ↔
      (¬s.isDir cwd input ∧ ¬s.isFile cwd input ∧ e = .invalidInput input) ∨
        ∃ cause, Stranded s cwd input cause ∧ e = .fileOpen input cause) ∧
    (s.Rooted → ∀ cause, Stranded s cwd input cause →
      (cause = .os .noEntry ∧ isAbsolute input = false ∧ s.holdsDir cwd = false) ∨
        cause = .os .nameTooLong ∧ ∃ loc f, s.entry? loc = some f ∧
          pathLimit ≤ Utf8.byteLength (Location.text loc) + 1) ∧
    (input = [] ∨ '\x00' ∈ input → ¬s.isDir cwd input ∧ ¬s.isFile cwd input) ∧
    (input.getLast? = some '/' → Passable s cwd → ¬s.isFile cwd input) ∧
    (∀ d jobs e, convertPath d cwd jobs s input = .error e ↔ Plan.ofInput s cwd input = .error e) ∧
    ∀ host arguments settings coloured, host.cwd = cwd → settings.input = input →
      Arguments.parse arguments = .ok settings → (tool host settings).isOk →
      ((run host s arguments coloured).exit = 0 ↔ ¬∃ cause, Stranded s cwd input cause) ∧
        ∀ e, Plan.ofInput s cwd input = .error e → (run host s arguments coloured).store = s := by
  refine ⟨fun e => ofInput_eq_error, fun rooted cause h => h.why rooted, leads_nowhere,
    fun slash way => not_isFile_of_trailing_separator way slash, fun d jobs e => convertPath_eq_error, ?_⟩
  rintro host arguments settings coloured rfl rfl parsed told
  have failure := failure_convertBy (s := s) .inOrder told
  rw [run, runBy_of_parse .inOrder host s coloured parsed]
  refine ⟨?_, fun e refused => (convertBy_of_refused .inOrder refused).1⟩
  rw [← failure, Session.outcome]
  split
  · next none => exact ⟨fun _ => none, fun _ => rfl⟩
  · next some =>
    refine ⟨fun h => ?_, fun h => absurd h some⟩
    cases h

/-- A directory with a file and a directory in it, and nothing where the program is started. -/
def leftTree : Store :=
  ((Store.empty.put [['o']] (.dir 0o755)).put [['o'], ['d']] (.dir 0o755)).putFile [['o'], ['f']]
    ⟨[0x78], 0o644⟩

/-- The directory by a way that does not end in a name. -/
def roundabout : PathText := "../o/d/..".toList

theorem stranded_leftTree : Stranded leftTree [[]] roundabout (.os .noEntry) :=
  ⟨by decide, by decide, by decide⟩

/-- A missing input is no reason to fail; a directory is one, when its name takes a working directory
that has been removed. -/
theorem fatal_iff_leftTree :
    (Plan.ofInput leftTree [] ['m'] = .error (.invalidInput ['m']) ∧
      (run (machineHost []) leftTree [['m']] false).exit = 0 ∧
      (run (machineHost []) leftTree [['m']] false).store = leftTree) ∧
    Plan.ofInput leftTree [[]] roundabout = .error (.fileOpen roundabout (.os .noEntry)) ∧
      isAbsolute roundabout = false ∧ leftTree.holdsDir [[]] = false ∧
      (run (machineHost [[]]) leftTree [roundabout] false).exit ≠ 0 := by
  have sound : leftTree.Sound [] := .of_admits (by decide) (by decide) (by decide)
  have settled : ¬∃ cause, Stranded leftTree [] ['m'] cause := fun ⟨_, h⟩ => absurd h.dir (by decide)
  obtain ⟨missing, _, _, _, _, program⟩ := fatal_iff leftTree [] ['m']
  obtain ⟨removed, why, _, _, _, program'⟩ := fatal_iff leftTree [[]] roundabout
  have unusable := (missing (.invalidInput ['m'])).2 (.inl ⟨by decide, by decide, rfl⟩)
  have parsed : Arguments.parse [['m']] = .ok { input := ['m'] } := by decide
  have parsed' : Arguments.parse [roundabout] = .ok { input := roundabout } := by decide
  obtain ⟨exit, store⟩ := program (machineHost []) _ _ false rfl rfl parsed (by decide)
  obtain ⟨exit', _⟩ := program' (machineHost [[]]) _ _ false rfl rfl parsed' (by decide)
  rcases why sound.toRooted _ stranded_leftTree with ⟨_, relative, gone⟩ | ⟨long, _⟩
  · exact ⟨⟨unusable, exit.2 settled, store _ unusable⟩,
      (removed _).2 (.inr ⟨_, stranded_leftTree, rfl⟩), relative, gone,
      fun h => exit'.1 h ⟨_, stranded_leftTree⟩⟩
  · cases long

/-- A directory is refused, as a file that cannot be opened, and the program fails on it, though by its
path from the root it has an output directory. -/
theorem refused_though_directory :
    leftTree.isDir [[]] roundabout ∧
      Plan.ofInput leftTree [[]] roundabout = .error (.fileOpen roundabout (.os .noEntry)) ∧
      directoryOutput leftTree [[]] "/o/d/..".toList = .ok "/o.src".toList ∧
      Arguments.parse [roundabout] = .ok { input := roundabout } ∧
      (run (machineHost [[]]) leftTree [roundabout] false).exit = 1 := by
  have parsed : Arguments.parse [roundabout] = .ok { input := roundabout } := by decide
  have failure : convertBy .inOrder (machineHost [[]]) leftTree { input := roundabout } = _ :=
    convertBy_of_stranded .inOrder stranded_leftTree
  refine ⟨stranded_leftTree.dir, ofInput_of_stranded stranded_leftTree, by decide, parsed, ?_⟩
  rw [run, runBy_of_parse .inOrder _ _ _ parsed, failure]
  rfl

end LuaTree.Cli

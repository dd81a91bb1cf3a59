import LuaTree.Proofs.Plan.Output

/-!
# Inputs that are refused

There are two reasons not to make a plan (`ofInput_eq_error`). The input leads neither to a directory nor
to a regular file. Or it leads to a directory whose output has no name (`Stranded`): a path without a
final name takes its name from the canonical text of where it leads to, and some directories have none.
`Stranded.why` says which: those named by a relative path from a working directory that has been removed,
and those that the way to leads past a location whose text is too long to be looked up.
-/

namespace LuaTree

open PathText Store

variable {s : Store} {cwd : Location} {input : PathText} {cause : IoError} {e : Error}

namespace Plan

/-- A directory that is named without a name of its own, and cannot be written out either. -/
structure Stranded (s : Store) (cwd : Location) (input : PathText) (cause : IoError) : Prop where
  dir : s.isDir cwd input
  nameless : finalName? input = none
  lost : s.canonical? cwd input = .error cause

/-- What it takes for an input to be stranded. -/
theorem Stranded.why (h : Stranded s cwd input cause) (rooted : s.Rooted) :
    (cause = .os .noEntry ∧ isAbsolute input = false ∧ s.holdsDir cwd = false) ∨
      cause = .os .nameTooLong ∧ ∃ loc f, s.entry? loc = some f ∧
        pathLimit ≤ Utf8.byteLength (Location.text loc) + 1 := by
  obtain ⟨_, _, hs⟩ := isDir_iff.1 h.dir
  exact rooted.canonical?_eq_error hs h.lost

/-- Writing a path's components anew keeps its final name. -/
theorem finalName?_ofComponents_components (p : PathText) :
    finalName? (ofComponents (components p)) = finalName? p := by
  rw [finalName?, components_ofComponents (normal_components p)]
  rfl

/-- The output directory of a path without a final name stands beside what the path is written out as. -/
theorem directoryOutput_of_nameless (s : Store) (cwd : Location) (h : finalName? input = none) :
    directoryOutput s cwd input = match s.canonical? cwd input with
      | .ok location => .ok (siblingDirectory location)
      | .error cause => .error (.fileOpen input cause) := by
  cases hc : s.canonical? cwd input with
  | ok => simp only [directoryOutput, finalName?_ofComponents_components, h, hc]
  | error => simp only [directoryOutput, finalName?_ofComponents_components, h, hc]

/-- Only a stranded input leads to a directory without an output directory. -/
theorem directoryOutput_eq_error (h : s.isDir cwd input) : directoryOutput s cwd input = .error e ↔
    ∃ cause, Stranded s cwd input cause ∧ e = .fileOpen input cause := by
  cases hn : finalName? input with
  | some n =>
    obtain ⟨cs, hc⟩ := finalName?_eq_some.1 hn
    rw [directoryOutput_of_components s cwd hc]
    refine iff_of_false (by simp) ?_
    rintro ⟨cause, stranded, _⟩
    cases hn.symm.trans stranded.nameless
  | none =>
    rw [directoryOutput_of_nameless s cwd hn]
    cases hc : s.canonical? cwd input with
    | ok place =>
      refine iff_of_false (by simp) ?_
      rintro ⟨cause, stranded, _⟩
      cases hc.symm.trans stranded.lost
    | error cause =>
      constructor
      · intro he
        cases he
        exact ⟨cause, ⟨h, hn, hc⟩, rfl⟩
      · rintro ⟨cause', stranded, rfl⟩
        cases hc.symm.trans stranded.lost
        rfl

theorem ofInput_of_directoryOutput {output : PathText} (h : s.isDir cwd input)
    (ho : directoryOutput s cwd input = .ok output) :
    ofInput s cwd input = .ok (ofDirectory s cwd input output) := by
  rw [ofInput, if_pos h, ho]
  rfl

theorem ofInput_of_stranded (h : Stranded s cwd input cause) :
    ofInput s cwd input = .error (.fileOpen input cause) := by
  rw [ofInput, if_pos h.dir, (directoryOutput_eq_error h.dir).2 ⟨cause, h, rfl⟩]
  rfl

/-- A directory is refused, or it has an output directory and a plan. -/
theorem stranded_or_planned (h : s.isDir cwd input) : (∃ cause, Stranded s cwd input cause) ∨
    ∃ output, directoryOutput s cwd input = .ok output ∧
      ofInput s cwd input = .ok (ofDirectory s cwd input output) := by
  cases ho : directoryOutput s cwd input with
  | error e =>
    obtain ⟨cause, stranded, _⟩ := (directoryOutput_eq_error h).1 ho
    exact .inl ⟨cause, stranded⟩
  | ok output => exact .inr ⟨output, rfl, ofInput_of_directoryOutput h ho⟩

/-- The inputs that there is no plan for, and what is said of them. -/
theorem ofInput_eq_error : ofInput s cwd input = .error e ↔
    (¬s.isDir cwd input ∧ ¬s.isFile cwd input ∧ e = .invalidInput input) ∨
      ∃ cause, Stranded s cwd input cause ∧ e = .fileOpen input cause := by
  by_cases hd : s.isDir cwd input
  · rcases stranded_or_planned hd with ⟨cause, stranded⟩ | ⟨output, ho, planned⟩
    · rw [ofInput_of_stranded stranded]
      constructor
      · intro h
        cases h
        exact .inr ⟨cause, stranded, rfl⟩
      · rintro (⟨hne, _, _⟩ | ⟨cause', stranded', rfl⟩)
        · exact absurd hd hne
        · cases stranded.lost.symm.trans stranded'.lost
          rfl
    · rw [planned]
      refine iff_of_false (by simp) ?_
      rintro (⟨hne, _, _⟩ | ⟨cause, stranded, _⟩)
      · exact hne hd
      · cases planned.symm.trans (ofInput_of_stranded stranded)
  · have settled : ∀ cause, ¬Stranded s cwd input cause := fun cause h => hd h.dir
    rw [ofInput, if_neg hd]
    by_cases hf : s.isFile cwd input
    · rw [if_pos hf]
      refine iff_of_false (by simp) ?_
      rintro (⟨_, hne, _⟩ | ⟨cause, h, _⟩)
      · exact hne hf
      · exact settled cause h
    · rw [if_neg hf]
      constructor
      · intro h
        cases h
        exact .inl ⟨hd, hf, rfl⟩
      · rintro (⟨_, _, rfl⟩ | ⟨cause, h, _⟩)
        · rfl
        · exact absurd h (settled cause)

/-- A path that nothing can be looked up by leads nowhere. -/
theorem leads_nowhere (h : input = [] ∨ '\x00' ∈ input) :
    ¬s.isDir cwd input ∧ ¬s.isFile cwd input := by
  have unchecked : checkText input ≠ .ok () := by
    intro hc
    obtain ⟨h0, hne, _⟩ := checkText_eq_ok.1 hc
    exact h.elim hne h0
  constructor
  · intro hd
    obtain ⟨_, _, hs⟩ := isDir_iff.1 hd
    exact unchecked (lookup_eq_ok.1 (stat?_eq_ok_iff_lookup.1 hs)).1
  · intro hf
    obtain ⟨_, _, hs⟩ := isFile_iff.1 hf
    exact unchecked (lookup_eq_ok.1 (stat?_eq_ok_iff_lookup.1 hs)).1

/-- A path with a separator at its end leads to no file. -/
theorem not_isFile_of_trailing_separator (way : Passable s cwd) (h : input.getLast? = some '/') :
    ¬s.isFile cwd input := by
  intro hf
  obtain ⟨_, _, hs⟩ := isFile_iff.1 hf
  have dir := isDir_of_trailing_separator (stat?_eq_ok_iff_lookup.1 hs) way h
  cases dir

end Plan

end LuaTree

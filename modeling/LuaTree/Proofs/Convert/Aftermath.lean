import LuaTree.Proofs.Convert.Building
import LuaTree.Proofs.Convert.Publishing
import LuaTree.Proofs.Convert.Runs

/-!
# What a failed item leaves behind

An item can fail half-way: after some of the directories above its destination have been created, at its
source, in the decompiler, or when what was written to the temporary file cannot be moved to the
destination. Nothing that stood anywhere is changed then, and what is new are directories above the
destination (`convertItem_failed`).

Up to the last stage only directories are created (`Built`); a copy or a publication that fails leaves the
store as it was after that (`Untouched`).
-/

namespace LuaTree

open PathText

namespace Store

variable {s t u : Store} {cwd : Location} {p : PathText}

theorem Untouched.undisturbed (h : Untouched s t)
    (kept : ∀ {loc i}, s.entry? loc = some (.file i) → i ∈ s.inodes.keys) (cwd : Location) (p : PathText) :
    Undisturbed s t cwd p where
  entries := ⟨fun ht => entryAt?_mono ht (fun l _ he _ => (h.entry l).symm.trans he) (h.entry _).symm,
    fun hs => entryAt?_mono hs (fun l _ he _ => (h.entry l).trans he) (h.entry _)⟩
  files hs := h.inode (kept (entry_of_lookup (entryAt?_eq_ok.1 hs) rfl))

/-- The store `t` is `s` but for new directories above the path `p`. -/
structure Spared (s t : Store) (cwd : Location) (p : PathText) : Prop where
  kept : ∀ {loc v}, s.view loc = some v → t.view loc = some v
  leads : ∀ {q last loc e}, s.entryAt? cwd last q = .ok (loc, e) → s.entry? loc = some e →
    t.entryAt? cwd last q = .ok (loc, e)
  new : ∀ {loc v}, s.view loc = none → t.view loc = some v → v = .dir (s.masked 0o777) ∧
    ∃ dir, parentText? p = some dir ∧ ∃ q ∈ ancestors dir, q <+: dir ∧ Designates t cwd q loc
  destination : .up ∉ components p → Undisturbed s t cwd p

/-- Where nothing but directories was created above a path, all else is spared. -/
theorem Built.spared (h : Built cwd (parentTexts p) s t) (coherent : s.Coherent cwd)
    (same : Untouched t u) : Spared s u cwd p := by
  have furnished := h.furnished coherent
  have views := same.view_eq furnished.coherent.kept
  have gains : Gains s u := fun l e he => (same.entry l).trans (furnished.gains l e he)
  refine ⟨fun {loc v} hs => ?_, fun {q last loc e} hs he => ?_, fun {loc v} hs hu => ?_, fun up => ?_⟩
  · rw [views]
    exact furnished.gains.view furnished.inodes hs
  · exact entryAt?_mono hs gains.keeps ((gains loc e he).trans he.symm)
  · rw [views] at hu
    cases he : t.entry? loc with
    | none => cases (view_eq_none.2 he).symm.trans hu
    | some e =>
      obtain ⟨rfl, q, hq, names⟩ := furnished.new (view_eq_none.1 hs) he
      cases (view_eq_dir.2 he).symm.trans hu
      unfold parentTexts at hq
      cases hd : parentText? p with
      | none =>
        rw [hd] at hq
        cases hq
      | some dir =>
        rw [hd] at hq
        refine ⟨rfl, dir, rfl, q, hq, (exists_steps_of_mem_ancestors hq).1, ?_⟩
        exact names.mono fun l e he _ => (same.entry l).trans he
  · exact (h.undisturbed coherent (goesOn_of_mem_parentTexts up)).trans
      (same.undisturbed furnished.coherent.kept cwd p)

end Store

open Store

variable {s : Store} {cwd : Location} {d : Decompiler} {item : WorkItem} {e : Error}

/-- Whatever the stage is that fails, it leaves the store as it was once the directories above the
destination had been created, as far as they could be. -/
theorem untouched_of_failed (quiet : d.Quiet)
    (failed : (convertItem d cwd s item).report.result = .error e) :
    Untouched (s.prepared cwd item.destination) (convertItem d cwd s item).store := by
  rw [prepared]
  -- the stages one after the other: the one that fails has changed nothing, and the later ones are not taken
  cases hp : ensureParent s cwd item.destination with
  | mk r t =>
    cases r with
    | error e =>
      rw [convertItem_of_unprepared hp]
      exact .refl t
    | ok _ =>
      cases hc : Chunk.isCompiled t cwd item.source with
      | error e =>
        rw [convertItem_of_unclassified hp hc]
        exact .refl t
      | ok compiled =>
        cases compiled with
        | false =>
          cases hcopy : copyVerbatim t cwd item.source item.destination with
          | mk r u =>
            rw [convertItem_of_copied hp hc hcopy] at failed ⊢
            unfold copyVerbatim at hcopy
            split at hcopy
            · cases hcopy
              cases failed
            · cases hcopy
              exact .refl t
        | true =>
          rw [convertItem_of_compiled hp hc, quiet] at failed ⊢
          cases ha : (d.decompile t item.source).result with
          | error e => exact .refl t
          | ok output =>
            rw [ha] at failed
            dsimp only at failed ⊢
            cases hs : output.success with
            | false => exact .refl t
            | true =>
              rw [hs, if_pos rfl] at failed
              rw [if_pos rfl]
              rcases publish_cases item.destination output.stdout with
                ⟨cause, u, published, same⟩ | ⟨u, dir, n, published, _⟩
              · rw [published]
                exact same
              · rw [published] at failed
                cases failed

/-- A failed item leaves everything that there was as it was, also its own destination, and nothing new
but directories above that. -/
theorem convertItem_failed (coherent : s.Coherent cwd) (quiet : d.Quiet)
    (failed : (convertItem d cwd s item).report.result = .error e) :
    Spared s (convertItem d cwd s item).store cwd item.destination :=
  (ensureParent_built s cwd item.destination).spared coherent (untouched_of_failed quiet failed)

/-- An item whose source is missing: the directories above its destination are there, and nothing else. -/
theorem convertItem_failed_namedTwice : ∃ e, namedTwice.Coherent [] ∧
    (convertItem (.constant (.ok ⟨[7], [], some 1⟩)) [] namedTwice
      ⟨['x'], "n/m/g".toList⟩).report.result = .error e ∧
    Spared namedTwice (convertItem (.constant (.ok ⟨[7], [], some 1⟩)) [] namedTwice
      ⟨['x'], "n/m/g".toList⟩).store [] "n/m/g".toList := by
  have coherent : namedTwice.Coherent [] :=
    (Sound.of_admits (by decide) (by decide) (by decide)).coherent
  refine ⟨.fileOpen ['x'] (.os .noEntry), coherent, ?_, ?_⟩
  · decide
  · exact convertItem_failed coherent (fun _ _ => rfl) (e := .fileOpen ['x'] (.os .noEntry)) (by decide)

end LuaTree

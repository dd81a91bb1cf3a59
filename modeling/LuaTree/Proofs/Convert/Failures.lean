import LuaTree.Proofs.Convert.Runs

/-!
# Failed decompilers

An item may fail at any of its stages, but only one failure comes with what a process printed: the
decompiler was asked and did not end with exit code 0 (`result_eq_decompilerFailed`).
-/

namespace LuaTree

variable {d : Decompiler} {cwd : Location} {item : WorkItem} {s : Store} {p : PathText} {e : Error}

/-- A decompiler that is not started reports no output of a process. -/
def Decompiler.Plainspoken (d : Decompiler) : Prop :=
  ∀ s p e, (d.decompile s p).result = .error e → e.diagnostics? = none

/-! ## What the stages fail with -/

theorem diagnostics?_of_ensureParent (h : (ensureParent s cwd p).1 = .error e) :
    e.diagnostics? = none := by
  unfold ensureParent at h
  split at h
  · cases h
  · next dir _ =>
    dsimp only at h
    cases hm : (s.makeDirs cwd dir).1 with
    | ok _ =>
      rw [hm] at h
      cases h
    | error cause =>
      rw [hm] at h
      cases h
      rfl

theorem diagnostics?_of_isCompiled (h : Chunk.isCompiled s cwd p = .error e) :
    e.diagnostics? = none := by
  unfold Chunk.isCompiled at h
  split at h
  · cases h
    rfl
  · split at h
    · cases h
      rfl
    · cases h

theorem diagnostics?_of_copyVerbatim {q : PathText} (h : (copyVerbatim s cwd p q).1 = .error e) :
    e.diagnostics? = none := by
  unfold copyVerbatim at h
  split at h
  · cases h
  · cases h
    rfl

theorem diagnostics?_of_publish {data : Bytes} (h : (publish s cwd p data).1 = .error e) :
    e.diagnostics? = none := by
  unfold publish publishAs at h
  split at h
  · cases h
    rfl
  · dsimp only at h
    split at h
    · cases h
    · cases h
      rfl

namespace ItemState

/-- The decompiler was asked for the item, and its process did not end with exit code 0. -/
def Rejected (d : Decompiler) (item : WorkItem) (st : ItemState) (o : ProcessOutput) : Prop :=
  st.stage = .decompile ∧ (d.decompile st.store item.source).result = .ok o ∧ o.exit ≠ some 0

theorem stage_of_rejected (cwd : Location) {st : ItemState} {o : ProcessOutput}
    (h : Rejected d item st o) :
    (step d cwd item st).stage = .done (.error (.decompilerFailed item.source o)) := by
  obtain ⟨stage, store, notices⟩ := st
  obtain ⟨rfl, answer, failed⟩ := h
  have failure : o.success = false := by rw [ProcessOutput.success, decide_eq_false failed]
  dsimp only at answer
  rw [step_decompile, answer]
  dsimp only
  rw [failure]
  rfl

/-- Only a stage that asks the decompiler fails with the output of a process. -/
theorem rejected_of_step (plain : d.Plainspoken) {st : ItemState} {o : ProcessOutput}
    (h : (step d cwd item st).stage = .done (.error (.decompilerFailed p o))) :
    st.stage = .done (.error (.decompilerFailed p o)) ∨
      p = item.source ∧ Rejected d item st o := by
  obtain ⟨stage, store, notices⟩ := st
  -- a failure without diagnostics is another one
  have other : ∀ {e : Error}, e.diagnostics? = none → e ≠ .decompilerFailed p o := by
    rintro e he rfl
    cases he
  cases stage with
  | prepare =>
    unfold step at h
    dsimp only at h
    split at h
    · cases h
    · next e _ hp =>
      cases h
      exact absurd rfl (other (diagnostics?_of_ensureParent (congrArg Prod.fst hp)))
  | classify =>
    unfold step at h
    dsimp only at h
    split at h
    · cases h
    · cases h
    · next e he =>
      cases h
      exact absurd rfl (other (diagnostics?_of_isCompiled he))
  | copy =>
    unfold step at h
    dsimp only at h
    split at h
    · cases h
    · next e _ hc =>
      cases h
      exact absurd rfl (other (diagnostics?_of_copyVerbatim (congrArg Prod.fst hc)))
  | decompile =>
    rw [step_decompile] at h
    dsimp only at h
    split at h
    · next e he =>
      cases h
      exact absurd rfl (other (plain _ _ _ he))
    · next output he =>
      split at h
      · cases h
      · next failed =>
        cases h
        refine .inr ⟨rfl, rfl, he, fun zero => failed ?_⟩
        rw [ProcessOutput.success, zero]
        rfl
  | publish data =>
    rw [step_publish] at h
    split at h
    · cases h
    · next e _ hp =>
      cases h
      exact absurd rfl (other (diagnostics?_of_publish (congrArg Prod.fst hp)))
  | done result => exact .inl h

theorem rejected_of_steps (plain : d.Plainspoken) {n : Nat} {o : ProcessOutput}
    (h : (steps d cwd item n (.initial s)).stage = .done (.error (.decompilerFailed p o))) :
    p = item.source ∧ ∃ k, Rejected d item (steps d cwd item k (.initial s)) o := by
  induction n with
  | zero => cases h
  | succ n ih =>
    rw [steps_succ] at h
    rcases rejected_of_step plain h with h | ⟨hp, rejected⟩
    · exact ih h
    · exact ⟨hp, n, rejected⟩

/-- However many stages it takes, an item that is done came to its result. -/
theorem stage_of_done {n : Nat} {result : Except Error Outcome}
    (h : (steps d cwd item n (.initial s)).stage = .done result) :
    (steps d cwd item stageCount (.initial s)).stage = .done result := by
  have done : (steps d cwd item n (.initial s)).stage.rank = 4 := by rw [h]; rfl
  have all := rank_steps_stageCount d cwd item (.initial s)
  rw [← steps_add_of_done all n, Nat.add_comm, steps_add_of_done done stageCount, h]

end ItemState

/-- An item fails with the output of a process just if the decompiler was asked and its process did not
end with exit code 0. -/
theorem result_eq_decompilerFailed (plain : d.Plainspoken) {o : ProcessOutput} :
    (convertItem d cwd s item).report.result = .error (.decompilerFailed p o) ↔
      p = item.source ∧
        ∃ k, ItemState.Rejected d item (ItemState.steps d cwd item k (.initial s)) o := by
  obtain ⟨result, stage⟩ := Stage.exists_done
    (ItemState.rank_steps_stageCount d cwd item (.initial s))
  have whole : (convertItem d cwd s item).report.result = result := by
    show Option.getD (ItemState.result? _) _ = _
    rw [ItemState.result?, stage]
    rfl
  rw [whole]
  constructor
  · rintro rfl
    exact ItemState.rejected_of_steps plain stage
  · rintro ⟨rfl, k, rejected⟩
    have failed := ItemState.stage_of_rejected cwd rejected
    rw [← ItemState.steps_succ] at failed
    have same := ItemState.stage_of_done failed
    rw [stage] at same
    cases same
    rfl

end LuaTree

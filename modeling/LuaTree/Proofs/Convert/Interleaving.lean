import LuaTree.Proofs.Convert.Plain

/-!
# Jobs make no difference

In a store of directories and regular files, none of them under two names, every way to interleave the
stages of a plan's items ends like converting them one after the other (`run_eq_sequential`): with the
same store, and with the same result for each item. The decompiler may answer as it likes, as long as
it goes by the path and the contents of the source only.
-/

namespace LuaTree

open PathText Store

variable {s : Store} {cwd : Location} {input : PathText} {d : Decompiler}

/-- Every schedule that comes to an end does the same as converting the items one after the other. -/
theorem run_eq_sequential {plan : Plan} (sound : s.Sound cwd) (plain : s.Plain) (quiet : d.Quiet)
    (byContents : d.ByContents cwd) (h : Plan.ofInput s cwd input = .ok plan) (jobs : Nat)
    (schedule : List Nat)
    (done : ((BatchState.initial s plan.items).run d cwd schedule).isDone) :
    Same ((BatchState.initial s plan.items).run d cwd schedule).store
        (convertBatch d cwd jobs s plan.items).store ∧
      ((BatchState.initial s plan.items).run d cwd schedule).report =
        (convertBatch d cwd jobs s plan.items).report ∧
      ((BatchState.initial s plan.items).run d cwd schedule).report.items.map (·.item) = plan.items := by
  obtain ⟨store, report, done'⟩ := BatchState.run_sequential d cwd jobs s plan.items
  have order : ((BatchState.initial s plan.items).run d cwd schedule).report.items.map (·.item) =
      plan.items := by
    have items : ((BatchState.initial s plan.items).run d cwd schedule).jobs.map Prod.fst = _ :=
      BatchState.items_run schedule
    rw [BatchState.items_initial] at items
    rw [BatchState.report, List.map_map]
    exact items
  rw [← store, ← report, ← and_assoc]
  refine ⟨?_, order⟩
  by_cases hd : s.isDir cwd input
  · obtain ⟨top, mode, hs⟩ := isDir_iff.1 hd
    rcases Plan.stranded_or_planned hd with ⟨cause, stranded⟩ | ⟨output, ho, made⟩
    · cases (Plan.ofInput_of_stranded stranded).symm.trans h
    cases made.symm.trans h
    obtain ⟨there, cs, dir, m, outlet⟩ := outlet_of_directoryOutput sound.wellNamed hs ho
    obtain ⟨routes, items, mem, sorted⟩ := Plan.items_ofDirectory sound.wellNamed hd output
    have mem : ∀ ns ∈ routes, Walk.Route s cwd input output ns := fun ns hns => (mem ns).1 hns
    have scene := scene_of_plain sound plain hs there ho outlet mem (Plan.nodup_of_sorted sorted)
    have course := course_of_byContents scene quiet byContents
    rw [items, items_of_routes outlet fun ns hns => (mem ns hns).ne_nil] at done done' ⊢
    exact (course schedule).unique done (course _) done'
  · rw [Plan.ofInput, if_neg hd] at h
    split at h
    · cases h
      have same := BatchState.run_singleton_unique done done'
      have same : (BatchState.initial s (Plan.ofFile input).items).run d cwd schedule = _ := same
      rw [same]
      exact ⟨fun _ => rfl, rfl⟩
    · cases h

/-- Taking the stages of all items in turns is as good as one item after the other. -/
theorem run_eq_sequential_blockedTree : blockedTree.Sound [] ∧ blockedTree.Plain ∧
    ∃ plan, Plan.ofInput blockedTree [] ['i'] = .ok plan ∧
      ((BatchState.initial blockedTree plan.items).run (.constant (.ok ⟨[7], [], some 0⟩)) []
        (List.replicate 4 (List.range plan.items.length)).flatten).isDone ∧
      Same ((BatchState.initial blockedTree plan.items).run (.constant (.ok ⟨[7], [], some 0⟩)) []
          (List.replicate 4 (List.range plan.items.length)).flatten).store
        (convertBatch (.constant (.ok ⟨[7], [], some 0⟩)) [] 2 blockedTree plan.items).store ∧
      ((BatchState.initial blockedTree plan.items).run (.constant (.ok ⟨[7], [], some 0⟩)) []
          (List.replicate 4 (List.range plan.items.length)).flatten).report =
        (convertBatch (.constant (.ok ⟨[7], [], some 0⟩)) [] 2 blockedTree plan.items).report ∧
      ((BatchState.initial blockedTree plan.items).run (.constant (.ok ⟨[7], [], some 0⟩)) []
          (List.replicate 4 (List.range plan.items.length)).flatten).report.items.map (·.item) =
        plan.items := by
  have dir : blockedTree.isDir [] ['i'] := by decide
  have output : Plan.directoryOutput blockedTree [] ['i'] = .ok ['i', '.', 's', 'r', 'c'] := by decide
  obtain ⟨plan, planned⟩ : ∃ plan, Plan.ofInput blockedTree [] ['i'] = .ok plan :=
    ⟨_, Plan.ofInput_of_directoryOutput dir output⟩
  have done : ((BatchState.initial blockedTree plan.items).run (.constant (.ok ⟨[7], [], some 0⟩)) []
      (List.replicate 4 (List.range plan.items.length)).flatten).isDone := by
    refine BatchState.isDone_of_count fun k hk => ?_
    have once : 1 ≤ (List.range plan.items.length).count k :=
      List.count_pos_iff.2 (List.mem_range.2 hk)
    rw [List.count_flatten, List.map_replicate, List.sum_replicate_nat, ItemState.stageCount]
    omega
  exact ⟨sound_blockedTree, plain_blockedTree, plan, planned, done,
    run_eq_sequential sound_blockedTree plain_blockedTree (fun _ _ => rfl)
    (fun _ _ _ _ _ _ _ _ _ _ => rfl) planned 2 _ done⟩

end LuaTree

import LuaTree.Proofs.Convert.Building
import LuaTree.Proofs.Store.Entries

/-!
# Exactly the directories that are missing

Above a destination no directory is created that was not missing: without any one of the new directories,
the parent could not be reached (`Designates.needed`). For a path goes through every directory that a path
above it names. Once the parent is there, there is nothing left to create (`ensureParent_of_isDir`).

And none is left out that could have been created: where the parent is not there afterwards, one of the
directories above the destination is refused although the one above it is there (`exists_denied`).
-/

namespace LuaTree

open PathText

namespace Store

variable {s t u : Store} {cwd loc : Location} {p q dir : PathText}

/-- Where a path above it names a directory, a path leads nowhere without that directory. -/
theorem Designates.needed (names : Designates t cwd q loc) (above : q ∈ ancestors dir) (hne : dir ≠ [])
    (gains : Gains u t) (free : u.entry? loc = none) : ¬u.isDir cwd dir := by
  intro h
  obtain ⟨front, some_, more, steps⟩ := exists_steps_of_mem_ancestors above
  have start_eq : start cwd q = start cwd dir := by
    obtain ⟨rest, rfl⟩ := front
    exact start_of_isAbsolute_eq (isAbsolute_append (some_ hne) rest).symm cwd
  obtain ⟨_, ahead, n, d, hq, rfl, _, _, i, _, way⟩ := designates_iff.1 names
  obtain ⟨b, mode, hs⟩ := isDir_iff.1 h
  obtain ⟨k, _, whole⟩ := leads_of_stat? hs rfl
  -- up to the name the lookup goes where it goes in the larger store
  rw [steps, ← bareSteps_eq q, hq, ← start_eq, List.append_assoc] at whole
  obtain ⟨_, _, m, _, before, behind⟩ := whole.reaches.split rfl (by simp)
  obtain rfl := (before.mono gains.keeps).unique way
  generalize Place.entry b (u.found b) = place at behind
  cases behind with
  | dir he _ _ _ | link he _ _ _ _ | kept he _ _ | last he _ _ => cases free.symm.trans he
  | free _ _ hl _ => cases hl

theorem climb_succ_of_top (h : parentText? p = none) (n : Nat) : ancestors.climb (n + 1) p = [p] := by
  cases hp : parent? p with
  | none => rw [ancestors.climb, hp]
  | some dir =>
    cases dir with
    | nil => exact climb_succ_of_bare hp n
    | cons c rest =>
      unfold parentText? at h
      rw [hp] at h
      cases h

/-- The directory `q` is not there, and creating it fails, but not for want of the one above it. -/
structure Denied (s : Store) (cwd : Location) (q : PathText) (cause : IoError) : Prop where
  refused : s.makeDir cwd q = .error cause
  missing : ¬s.isDir cwd q
  above : cause = .os .noEntry → ∀ dir, parentText? q = some dir → s.isDir cwd dir

/-- Where nothing more is tried, it is the path itself that is refused. -/
theorem refused_of_makeDirsAt_cons {above : List PathText} {cause : IoError}
    (h : s.makeDirsAt cwd (p :: above) = (.error cause, t))
    (enough : ∀ cause, s.makeDir cwd p = .error cause → cause ≠ .os .noEntry ∨ above = []) :
    s.makeDir cwd p = .error cause ∧ ¬s.isDir cwd p ∧ t = s := by
  cases hm : s.makeDir cwd p with
  | ok u =>
    rw [makeDirsAt_cons_ok hm] at h
    cases h
  | error e =>
    rw [makeDirsAt_cons_error hm (enough e hm)] at h
    split at h
    · cases h
    · next no =>
      cases h
      exact ⟨rfl, no, rfl⟩

/-- Creating a path with the parents above it gives up only where one of them is refused. -/
theorem exists_denied (coherent : s.Coherent cwd) {cause : IoError} (n : Nat) (long : p.length ≤ n)
    (h : s.makeDirsAt cwd (ancestors.climb n p) = (.error cause, t)) :
    ∃ q ∈ ancestors.climb n p, Denied t cwd q cause := by
  induction n generalizing p t with
  | zero =>
    obtain rfl := List.length_eq_zero_iff.1 (Nat.le_zero.1 long)
    obtain ⟨refused, missing, rfl⟩ := refused_of_makeDirsAt_cons h fun _ _ => .inr rfl
    exact ⟨[], List.mem_singleton_self [], refused, missing, fun _ dir hd => by cases hd⟩
  | succ n ih =>
    cases hp : parentText? p with
    | none =>
      rw [climb_succ_of_top hp] at h ⊢
      obtain ⟨refused, missing, rfl⟩ := refused_of_makeDirsAt_cons h fun _ _ => .inr rfl
      exact ⟨p, List.mem_singleton_self p, refused, missing, fun _ dir hd => by cases hp.symm.trans hd⟩
    | some dir =>
      obtain ⟨parent, hne⟩ := parent?_of_parentText? hp
      have shorter := length_lt_of_parent? parent hne
      rw [climb_succ_of_parent parent hne] at h ⊢
      by_cases lacks : s.makeDir cwd p = .error (.os .noEntry)
      · have answer := makeDirsAt_climb coherent n dir
        cases ha : s.makeDirsAt cwd (ancestors.climb n dir) with
        | mk r u =>
          rw [ha] at answer
          cases r with
          | error e =>
            cases (makeDirsAt_cons_above lacks (climb_ne_nil n dir) ha).symm.trans h
            obtain ⟨q, hq, denied⟩ := ih (by omega) ha
            exact ⟨q, List.mem_cons_of_mem p hq, denied⟩
          | ok _ =>
            -- the directory above is there now, so the second refusal is final
            have there := answer.1 rfl
            rw [makeDirsAt_cons_again lacks (climb_ne_nil n dir) ha] at h
            obtain ⟨refused, missing, rfl⟩ := refused_of_makeDirsAt_cons h fun _ _ => .inr rfl
            refine ⟨p, List.mem_cons_self, refused, missing, fun _ dir' hd => ?_⟩
            rwa [Option.some.inj (hd.symm.trans hp)]
      · have enough : ∀ e, s.makeDir cwd p = .error e → e ≠ .os .noEntry := by
          rintro e hm rfl
          exact lacks hm
        obtain ⟨refused, missing, rfl⟩ := refused_of_makeDirsAt_cons h fun e hm => .inl (enough e hm)
        exact ⟨p, List.mem_cons_self, refused, missing, fun heq => absurd heq (enough cause refused)⟩

end Store

open Store

variable {s : Store} {cwd : Location} {p dir : PathText}

/-- Where the parent is there, there is nothing to create. -/
theorem ensureParent_of_isDir (rooted : s.Rooted)
    (there : ∀ dir, parentText? p = some dir → s.isDir cwd dir) : ensureParent s cwd p = (.ok (), s) := by
  unfold ensureParent
  cases hp : parentText? p with
  | none => rfl
  | some dir =>
    dsimp only
    rw [makeDirs_of_isDir rooted (there dir hp)]
    rfl

theorem parentText?_eq_some : parentText? p = some dir ↔ parent? p = some dir ∧ dir ≠ [] := by
  refine ⟨parent?_of_parentText?, fun ⟨hp, hne⟩ => ?_⟩
  unfold parentText?
  rw [hp]
  cases dir with
  | nil => exact absurd rfl hne
  | cons c rest => rfl

/-- The answer is whether the parent is a directory afterwards. -/
theorem ensureParent_eq_ok_iff (coherent : s.Coherent cwd) (p : PathText) :
    (ensureParent s cwd p).1 = .ok () ↔ ∀ dir, parentText? p = some dir → (s.prepared cwd p).isDir cwd dir := by
  have answer := ensureParent_cases coherent p
  unfold prepared
  cases h : ensureParent s cwd p with
  | mk r t =>
    rw [h] at answer
    cases r with
    | ok _ => exact ⟨fun _ => answer, fun _ => rfl⟩
    | error e =>
      obtain ⟨dir, cause, hp, gone, _⟩ := answer
      refine ⟨fun h => ?_, fun h => absurd (h dir hp) gone⟩
      cases h

/-- It gives up only where one of the directories above the destination cannot be created. -/
theorem exists_denied_of_ensureParent (coherent : s.Coherent cwd) {e : Error}
    (failed : (ensureParent s cwd p).1 = .error e) : ∃ dir cause, parent? p = some dir ∧
      e = .createDir dir cause ∧ ∃ q ∈ ancestors dir, Denied (s.prepared cwd p) cwd q cause := by
  unfold prepared
  unfold ensureParent at failed ⊢
  cases hp : parentText? p with
  | none =>
    rw [hp] at failed
    cases failed
  | some dir =>
    rw [hp] at failed
    dsimp only at failed ⊢
    cases hm : s.makeDirs cwd dir with
    | mk r t =>
      rw [hm] at failed
      cases r with
      | ok _ => cases failed
      | error cause =>
        cases failed
        obtain ⟨q, hq, denied⟩ := exists_denied coherent dir.length (Nat.le_refl _) hm
        exact ⟨dir, cause, (parent?_of_parentText? hp).1, rfl, q, hq, denied⟩

/-- The directory above a destination is created, with exactly what is missing above it. -/
theorem ensureParent_exact (coherent : s.Coherent cwd) (p : PathText) :
    ((ensureParent s cwd p).1 = .ok () ↔
      ∀ dir, parent? p = some dir → dir = [] ∨ (s.prepared cwd p).isDir cwd dir) ∧
    (∀ loc e, s.entry? loc = some e → Store.entry? (s.prepared cwd p) loc = some e) ∧
    (s.prepared cwd p).inodes = s.inodes ∧
    (∀ loc e, s.entry? loc = none → Store.entry? (s.prepared cwd p) loc = some e →
      e = .dir (s.masked 0o777) ∧ ∃ dir, parent? p = some dir ∧
        (∃ q ∈ ancestors dir, q <+: dir ∧ Designates (s.prepared cwd p) cwd q loc) ∧
        ∀ u, Gains u (s.prepared cwd p) → u.entry? loc = none → ¬u.isDir cwd dir) ∧
    (∀ loc, Designates (s.prepared cwd p) cwd p loc →
      Store.entry? (s.prepared cwd p) loc = s.entry? loc ∨
        ∃ dir q, parent? p = some dir ∧ q ∈ ancestors dir ∧ Designates (s.prepared cwd p) cwd q loc) ∧
    ((ensureParent s cwd p).1 = .ok () →
      ensureParent (s.prepared cwd p) cwd p = (.ok (), s.prepared cwd p)) ∧
    (∀ e, (ensureParent s cwd p).1 = .error e → ∃ dir cause, parent? p = some dir ∧
      e = .createDir dir cause ∧ ∃ q ∈ ancestors dir, Denied (s.prepared cwd p) cwd q cause) := by
  have furnished := (ensureParent_built s cwd p).furnished coherent
  have parents : ∀ q ∈ parentTexts p, ∃ dir, parent? p = some dir ∧ dir ≠ [] ∧ q ∈ ancestors dir := by
    intro q hq
    unfold parentTexts at hq
    cases hp : parentText? p with
    | none =>
      rw [hp] at hq
      cases hq
    | some dir =>
      rw [hp] at hq
      obtain ⟨parent, hne⟩ := parentText?_eq_some.1 hp
      exact ⟨dir, parent, hne, hq⟩
  refine ⟨?_, furnished.gains, furnished.inodes, fun loc e free new => ?_, fun loc own => ?_, fun ok => ?_,
    fun e failed => exists_denied_of_ensureParent coherent failed⟩
  · rw [ensureParent_eq_ok_iff coherent]
    refine ⟨fun h dir hp => or_iff_not_imp_left.2 fun hne => h dir (parentText?_eq_some.2 ⟨hp, hne⟩),
      fun h dir hp => ?_⟩
    obtain ⟨parent, hne⟩ := parentText?_eq_some.1 hp
    exact (h dir parent).resolve_left hne
  · obtain ⟨rfl, q, hq, names⟩ := furnished.new free new
    obtain ⟨dir, hp, hne, above⟩ := parents q hq
    exact ⟨rfl, dir, hp, ⟨q, above, (exists_steps_of_mem_ancestors above).1, names⟩,
      fun u gains gone => names.needed above hne gains gone⟩
  · cases hs : s.entry? loc with
    | some e => exact .inl (furnished.gains loc e hs)
    | none =>
      cases ht : Store.entry? (s.prepared cwd p) loc with
      | none => exact .inl rfl
      | some e =>
        obtain ⟨_, q, hq, names⟩ := furnished.new hs ht
        obtain ⟨dir, hp, _, above⟩ := parents q hq
        exact .inr ⟨dir, q, hp, above, names⟩
  · exact ensureParent_of_isDir furnished.coherent.toRooted ((ensureParent_eq_ok_iff coherent p).1 ok)

/-- A directory and a link to it. -/
def lodgeTree : Store := (Store.empty.put [['d']] (.dir 0o755)).put [['l']] (.link ['d'])

/-- Behind the link a directory is missing, and is there after one call. -/
theorem ensureParent_exact_lodgeTree : lodgeTree.Coherent [] ∧
    (lodgeTree.isDir [] "l/a".toList = false ∧
      (lodgeTree.prepared [] "l/a/f".toList).isDir [] "l/a".toList) ∧
    ensureParent (lodgeTree.prepared [] "l/a/f".toList) [] "l/a/f".toList =
      (.ok (), lodgeTree.prepared [] "l/a/f".toList) := by
  have sound : lodgeTree.Sound [] := .of_admits (by decide) (by decide) (by decide)
  have created : (ensureParent lodgeTree [] "l/a/f".toList).1 = .ok () := by decide
  have parent : parent? "l/a/f".toList = some "l/a".toList := by decide
  obtain ⟨answer, _, _, _, _, again, _⟩ := ensureParent_exact sound.coherent "l/a/f".toList
  exact ⟨sound.coherent, ⟨by decide, (answer.1 created _ parent).resolve_left (by decide)⟩, again created⟩

end LuaTree

import LuaTree.Convert.Writer
import LuaTree.Proofs.Convert.Parents
import LuaTree.Proofs.Path.Ancestors
import LuaTree.Proofs.Store.Leads
import Mathlib.Logic.Relation

/-!
# Creating directories among links

`Parents` says what creating the directories above a destination comes to where no link is in the way.
Here is what it does in any store, also when it gives up half-way: it creates directories one by one, each
at one of the paths (`makeDirsAt_built`), so nothing that stood somewhere is changed (`Built.furnished`),
and whether the parent is a directory afterwards is what it answers (`ensureParent_cases`).

A new directory above a destination is no news about the destination, unless `..` leads out of it again:
where nothing was before, nothing is below it (`Built.undisturbed`).
-/

namespace LuaTree

open PathText

namespace Store

variable {s t u : Store} {cwd loc : Location} {last : LastName} {p q dir : PathText} {ps : List PathText}

/-! ## Looking at a path -/

/-- To anyone who looks, the path is in `t` as it is in `s`: it leads to the same entry or to none, and a
file that it leads to has the same contents and permission bits. -/
structure Undisturbed (s t : Store) (cwd : Location) (p : PathText) : Prop where
  entries : ∀ {last loc e}, t.entryAt? cwd last p = .ok (loc, e) ↔ s.entryAt? cwd last p = .ok (loc, e)
  files : ∀ {last loc i}, s.entryAt? cwd last p = .ok (loc, .file i) → t.inode i = s.inode i

theorem Undisturbed.refl (s : Store) (cwd : Location) (p : PathText) : Undisturbed s s cwd p :=
  ⟨Iff.rfl, fun _ => rfl⟩

theorem Undisturbed.trans (h : Undisturbed s t cwd p) (h' : Undisturbed t u cwd p) :
    Undisturbed s u cwd p where
  entries := h'.entries.trans h.entries
  files hs := (h'.files (h.entries.2 hs)).trans (h.files hs)

theorem Gains.view (gains : Gains s t) (inodes : t.inodes = s.inodes) {v : View}
    (h : s.view loc = some v) : t.view loc = some v := by
  cases he : s.entry? loc with
  | none => cases (view_eq_none.2 he).symm.trans h
  | some e =>
    rw [← h]
    refine view_congr ((gains loc e he).trans he.symm) fun i _ => ?_
    rw [inode, inode, inodes]

theorem Undisturbed.symm (h : Undisturbed s t cwd p) : Undisturbed t s cwd p where
  entries := h.entries.symm
  files ht := (h.files (h.entries.1 ht)).symm

/-! ## One directory -/

/-- A directory at a free name keeps a store coherent. -/
theorem Coherent.makeDir (coherent : s.Coherent cwd) (h : s.makeDir cwd p = .ok t) : t.Coherent cwd := by
  obtain ⟨loc, names, free, rfl⟩ := makeDir_eq_ok.1 h
  obtain ⟨_, _, n, dir, _, rfl, _, there, _⟩ := designates_iff.1 names
  have gains : Gains s (s.put (dir ++ [n]) (.dir (s.masked 0o777))) := gains_put free
  have old : ∀ {l e}, Store.entry? (s.put (dir ++ [n]) (.dir (s.masked 0o777))) l = some e →
      l = dir ++ [n] ∧ e = .dir (s.masked 0o777) ∨ s.entry? l = some e := by
    intro l e hl
    rw [entry?_put] at hl
    split at hl
    · next heq =>
      cases hl
      exact .inl ⟨heq, rfl⟩
    · exact .inr hl
  refine ⟨⟨gains.keeps.holdsDir coherent.root, fun hl => ?_⟩, fun hl => ?_, fun b e hb hl => ?_⟩
  · rcases old hl with ⟨heq, _⟩ | hl
    · obtain ⟨rfl, _⟩ := List.append_inj' heq rfl
      exact gains.keeps.holdsDir there
    · exact gains.keeps.holdsDir (coherent.parent hl)
  · rcases old hl with ⟨_, he⟩ | hl
    · cases he
    · exact coherent.kept hl
  · rcases old hl with ⟨_, rfl⟩ | hl
    · rfl
    · exact coherent.way b e hb hl

/-! ## Paths that go on below a new directory -/

/-- The path `p` goes on below `q`, and never back. -/
structure GoesOn (q p : PathText) : Prop where
  ne_nil : q ≠ []
  front : q <+: p
  steps : ∃ more, Step.ofText p = Step.ofText q ++ more ∧ .up ∉ more ∧ ∃ n, .enter n ∈ more

/-- Where nothing stands below a directory, no lookup that goes down from there ends at an entry. -/
theorem Reaches.barren {k : Nat} {a b : Location} {e : Entry} {steps : List Step} {n : Name}
    (h : Reaches s last k a steps (.entry b e)) (nothing : ∀ n, s.entry? (a ++ [n]) = none)
    (up : .up ∉ steps) (down : .enter n ∈ steps) : False := by
  generalize hp : Place.entry b e = place at h
  induction h with
  | here => cases down
  | stay _ ih | slash _ ih =>
    exact ih nothing (fun hm => up (List.mem_cons_of_mem _ hm)) (by simpa using down) hp
  | up _ _ => exact up List.mem_cons_self
  | dir he _ _ _ | link he _ _ _ _ | kept he _ _ | last he _ _ => cases (nothing _).symm.trans he
  | free _ _ _ _ => cases hp

/-- What goes on below a new directory leads nowhere, neither before nor after. -/
theorem entryAt?_of_makeDir (rooted : s.Rooted) (h : s.makeDir cwd q = .ok t) (goesOn : GoesOn q p)
    {v : Store} (hv : v = s ∨ v = t) {found : Location × Entry} :
    v.entryAt? cwd last p ≠ .ok found := by
  obtain ⟨b, e⟩ := found
  intro hp
  obtain ⟨more, steps, up, n, down⟩ := goesOn.steps
  obtain ⟨loc, names, free, rfl⟩ := makeDir_eq_ok.1 h
  obtain ⟨_, front, m, dir, hf, rfl, _, _, i, _, way⟩ := designates_iff.1 names
  have start_eq : start cwd q = start cwd p := by
    obtain ⟨rest, rfl⟩ := goesOn.front
    exact start_of_isAbsolute_eq (isAbsolute_append goesOn.ne_nil rest).symm cwd
  -- up to the new directory the lookup takes the same way as the one that created it
  obtain ⟨_, k, _, hr⟩ := lookup_eq_ok.1 (entryAt?_eq_ok.1 hp)
  rw [ofPath_eq, bareSteps_eq, steps, ← bareSteps_eq q, hf, List.append_assoc, List.append_assoc,
    ← start_eq] at hr
  obtain ⟨_, j, d, _, hd, hr⟩ := hr.split rfl (by simp)
  have keeps : Keeps s v := by
    rcases hv with rfl | rfl
    · exact .refl v
    · exact (gains_put free).keeps
  obtain rfl := (way.mono keeps).unique hd
  have up : .up ∉ more ++ if p.getLast? = some '/' then [.slash] else [] := by
    rw [List.mem_append, not_or]
    refine ⟨up, fun hm => ?_⟩
    split at hm
    · cases List.mem_singleton.1 hm
    · cases hm
  have down := List.mem_append_left (if p.getLast? = some '/' then [.slash] else []) down
  generalize (more ++ if p.getLast? = some '/' then [.slash] else []) = rest at hr up down
  rw [List.singleton_append] at hr
  rcases hv with rfl | rfl
  · generalize hp : Place.entry b e = place at hr
    cases hr with
    | dir he _ _ _ | link he _ _ _ _ | kept he _ _ | last he _ _ => cases free.symm.trans he
    | free _ _ _ _ => cases hp
  · have new : Store.entry? (s.put (dir ++ [m]) (.dir (s.masked 0o777))) (dir ++ [m]) =
        some (.dir (s.masked 0o777)) := by rw [entry?_put, if_pos rfl]
    cases hr with
    | dir _ _ _ hr =>
      refine hr.barren (fun x => ?_) up down
      rw [entry?_put, if_neg (by simp)]
      exact rooted.nothing_below free [x]
    | link he _ _ _ _ | kept he _ _ => cases new.symm.trans he
    | last he _ hp =>
      cases new.symm.trans he
      cases hp

/-! ## Many directories -/

/-- Directories have been created at some of the paths. -/
def Built (cwd : Location) (ps : List PathText) : Store → Store → Prop :=
  Relation.ReflTransGen fun s t => ∃ p ∈ ps, s.makeDir cwd p = .ok t

theorem makeDirsAt_built (s : Store) (cwd : Location) (ps : List PathText) :
    Built cwd ps s (s.makeDirsAt cwd ps).2 := by
  induction ps with
  | nil => exact .refl
  | cons p above ih =>
    have ih : Built cwd (p :: above) s (s.makeDirsAt cwd above).2 :=
      Relation.ReflTransGen.mono (fun _ _ ⟨q, hq, h⟩ => ⟨q, List.mem_cons_of_mem p hq, h⟩) _ _ ih
    rw [makeDirsAt]
    split
    · next t h => exact .single ⟨p, List.mem_cons_self, h⟩
    · split
      · cases ha : s.makeDirsAt cwd above with
        | mk r t =>
          rw [ha] at ih
          cases r with
          | error cause => exact ih
          | ok _ =>
            dsimp only
            cases h : t.makeDir cwd p with
            | ok u => exact ih.tail ⟨p, List.mem_cons_self, h⟩
            | error cause => exact ih
      · exact .refl

/-- The store `t` is `s` with new directories, each at one of the paths. -/
structure Furnished (s t : Store) (cwd : Location) (ps : List PathText) : Prop where
  coherent : t.Coherent cwd
  gains : Gains s t
  inodes : t.inodes = s.inodes
  umask : t.umask = s.umask
  new : ∀ {loc e}, s.entry? loc = none → t.entry? loc = some e →
    e = .dir (s.masked 0o777) ∧ ∃ p ∈ ps, Designates t cwd p loc

theorem Built.furnished (h : Built cwd ps s t) (coherent : s.Coherent cwd) : Furnished s t cwd ps := by
  induction h with
  | refl => exact ⟨coherent, .refl s, rfl, rfl, fun hs ht => by cases hs.symm.trans ht⟩
  | @tail t u _ step ih =>
    obtain ⟨p, hp, hm⟩ := step
    obtain ⟨loc, names, free, rfl⟩ := makeDir_eq_ok.1 hm
    have gains : Gains t (t.put loc (.dir (t.masked 0o777))) := gains_put free
    refine ⟨ih.coherent.makeDir hm, fun l e hs => gains l e (ih.gains l e hs), ih.inodes, ih.umask,
      fun {l e} hs hu => ?_⟩
    rw [entry?_put] at hu
    split at hu
    · next heq =>
      cases hu
      refine ⟨?_, p, hp, heq ▸ names.mono gains.keeps⟩
      rw [masked, ih.umask, masked]
    · obtain ⟨he, q, hq, hd⟩ := ih.new hs hu
      exact ⟨he, q, hq, hd.mono gains.keeps⟩

/-- Directories above a path that never goes back make no difference to it. -/
theorem Built.undisturbed (h : Built cwd ps s t) (coherent : s.Coherent cwd)
    (goOn : ∀ q ∈ ps, GoesOn q p) : Undisturbed s t cwd p := by
  refine ⟨fun {last loc e} => ?_, fun _ => ?_⟩
  · induction h with
    | refl => exact Iff.rfl
    | @tail t u built step ih =>
      obtain ⟨q, hq, hm⟩ := step
      have built : Built cwd ps s t := built
      have nowhere : ∀ v, v = t ∨ v = u → v.entryAt? cwd last p ≠ .ok (loc, e) := fun v hv =>
        entryAt?_of_makeDir (built.furnished coherent).coherent.toRooted hm (goOn q hq) hv
      rw [← ih]
      exact ⟨fun hu => absurd hu (nowhere u (.inr rfl)), fun ht => absurd ht (nowhere t (.inl rfl))⟩
  · rw [inode, inode, (h.furnished coherent).inodes]

/-! ## Whether a directory is there afterwards -/

theorem checkText_of_front (hc : checkText p = .ok ()) (hne : q ≠ []) (front : q <+: p) :
    checkText q = .ok () := by
  obtain ⟨rest, rfl⟩ := front
  obtain ⟨h0, _, hl⟩ := checkText_eq_ok.1 hc
  rw [Utf8.byteLength_append] at hl
  exact checkText_eq_ok.2 ⟨fun hm => h0 (List.mem_append_left rest hm), hne, by omega⟩

/-- A path that leads to a directory leads through the one above it. -/
theorem isDir_of_below (way : Passable s cwd) (h : s.isDir cwd p) (hne : q ≠ []) (front : q <+: p)
    {more : List Step} (steps : Step.ofText p = Step.ofText q ++ more) (hm : more ≠ []) :
    s.isDir cwd q := by
  obtain ⟨loc, mode, hs⟩ := isDir_iff.1 h
  obtain ⟨hc, k, hk, hr⟩ := lookup_eq_ok.1 (stat?_eq_ok_iff_lookup.1 hs)
  have start_eq : start cwd q = start cwd p := by
    obtain ⟨rest, rfl⟩ := front
    exact start_of_isAbsolute_eq (isAbsolute_append hne rest).symm cwd
  rw [ofPath_eq, bareSteps_eq, steps, ← bareSteps_eq q, List.append_assoc, ← start_eq] at hr
  obtain ⟨i, j, b, rfl, hi, _⟩ := hr.split rfl (by simp [hm])
  have there := hi.stat? (checkText_of_front hc hne front) (by omega)
  rw [isDir, there]
  exact (hi.passable (way.start q)).found_isDir

/-- Where nothing more is tried, the answer is whether the directory is there. -/
theorem makeDirsAt_cons_iff {above : List PathText}
    (enough : ∀ cause, s.makeDir cwd p = .error cause → cause ≠ .os .noEntry ∨ above = []) :
    (s.makeDirsAt cwd (p :: above)).1 = .ok () ↔ (s.makeDirsAt cwd (p :: above)).2.isDir cwd p := by
  cases hm : s.makeDir cwd p with
  | ok t => simp [makeDirsAt_cons_ok hm, isDir_of_makeDir hm]
  | error cause =>
    rw [makeDirsAt_cons_error hm (enough cause hm)]
    cases s.isDir cwd p <;> simp

/-- Creating a path with the parents above it answers whether it leads to a directory afterwards. -/
theorem makeDirsAt_climb (coherent : s.Coherent cwd) (n : Nat) (p : PathText) :
    (s.makeDirsAt cwd (ancestors.climb n p)).1 = .ok () ↔
      (s.makeDirsAt cwd (ancestors.climb n p)).2.isDir cwd p := by
  induction n generalizing p with
  | zero => exact makeDirsAt_cons_iff fun _ _ => .inr rfl
  | succ n ih =>
    rw [ancestors.climb]
    split
    · exact makeDirsAt_cons_iff fun _ _ => .inr rfl
    · exact makeDirsAt_cons_iff fun _ _ => .inr rfl
    · next dir hdir hp =>
      have nonempty := climb_ne_nil n dir
      by_cases lacks : s.makeDir cwd p = .error (.os .noEntry)
      · have ih := ih dir
        have coherent := ((makeDirsAt_built s cwd (ancestors.climb n dir)).furnished coherent).coherent
        cases ha : s.makeDirsAt cwd (ancestors.climb n dir) with
        | mk r t =>
          rw [ha] at ih coherent
          cases r with
          | error cause =>
            -- without the directory above it there is no way to the path
            obtain ⟨front, more, steps, leads⟩ := exists_steps_of_parent? hp fun hd => hdir hd
            have hmore : more ≠ [] := by
              rintro rfl
              simp at leads
            rw [makeDirsAt_cons_above lacks nonempty ha]
            constructor
            · intro h
              cases h
            · intro h
              cases ih.2 (isDir_of_below coherent.way h (fun hd => hdir hd) front steps hmore)
          | ok _ =>
            rw [makeDirsAt_cons_again lacks nonempty ha]
            exact makeDirsAt_cons_iff fun _ _ => .inr rfl
      · refine makeDirsAt_cons_iff fun cause hm => .inl ?_
        rintro rfl
        exact lacks hm

end Store

/-! ## The directory above a destination -/

open Store

variable {s : Store} {cwd : Location} {p dir : PathText}

/-- The directories above a path that may have to be created, nearest first. -/
def parentTexts (p : PathText) : List PathText := (parentText? p).elim [] ancestors

/-- The store in which the directories above a path have been created, as far as they could be. -/
abbrev Store.prepared (s : Store) (cwd : Location) (p : PathText) : Store := (ensureParent s cwd p).2

theorem ensureParent_built (s : Store) (cwd : Location) (p : PathText) :
    Built cwd (parentTexts p) s (s.prepared cwd p) := by
  unfold prepared ensureParent parentTexts
  cases parentText? p with
  | none => exact .refl
  | some dir => exact makeDirsAt_built s cwd (ancestors dir)

theorem parent?_of_parentText? (h : parentText? p = some dir) : parent? p = some dir ∧ dir ≠ [] := by
  unfold parentText? at h
  split at h
  · cases h
  · cases h
  · next dir' hne hp =>
    cases h
    exact ⟨hp, hne⟩

/-- A path without `..` goes on below every directory above it. -/
theorem goesOn_of_mem_parentTexts (h : .up ∉ components p) : ∀ q ∈ parentTexts p, GoesOn q p := by
  intro q hq
  unfold parentTexts at hq
  cases hp : parentText? p with
  | none =>
    rw [hp] at hq
    cases hq
  | some dir =>
    rw [hp] at hq
    obtain ⟨parent, hne⟩ := parent?_of_parentText? hp
    obtain ⟨front, more, steps, leads⟩ := exists_steps_of_parent? parent hne
    obtain ⟨front', some_, more', steps'⟩ := exists_steps_of_mem_ancestors hq
    have whole : Step.ofText p = Step.ofText q ++ (more' ++ more) := by
      rw [steps, steps', List.append_assoc]
    have up : .up ∉ more' ++ more := fun hm =>
      h (Step.up_mem_components (whole ▸ List.mem_append_right _ hm))
    refine ⟨some_ hne, front'.trans front, more' ++ more, whole, up, ?_⟩
    rcases leads with hm | ⟨n, hm⟩
    · exact absurd (List.mem_append_right more' hm) up
    · exact ⟨n, List.mem_append_right more' hm⟩

/-- The directory above a destination is there afterwards, or it is named as the one that could not be
created. -/
theorem ensureParent_cases (coherent : s.Coherent cwd) (p : PathText) :
    match ensureParent s cwd p with
    | (.ok (), t) => ∀ dir, parentText? p = some dir → t.isDir cwd dir
    | (.error e, t) => ∃ dir cause, parentText? p = some dir ∧ ¬t.isDir cwd dir ∧
        e = .createDir dir cause := by
  unfold ensureParent
  cases hp : parentText? p with
  | none => simp
  | some dir =>
    have answer := makeDirsAt_climb coherent dir.length dir
    dsimp only
    rw [makeDirs, ancestors]
    cases hm : s.makeDirsAt cwd (ancestors.climb dir.length dir) with
    | mk r t =>
      rw [hm] at answer
      cases r with
      | ok _ =>
        rintro _ ⟨⟩
        exact answer.1 rfl
      | error cause =>
        refine ⟨dir, cause, rfl, fun hd => ?_, rfl⟩
        cases answer.2 hd

end LuaTree

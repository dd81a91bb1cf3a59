import LuaTree.Proofs.Store.Below
import LuaTree.Proofs.Store.Joined

/-!
# Creating the directories above a destination

Where no link is in the way, `makeDirs` is all or nothing, and what keeps it from its work is read off
the store before: `obstacle`. Without one, the directories that were missing are there, and nothing
else has changed (`Filled`). `makeDirs_below` says both; `ensureParent_below` carries it over to the
parent of a destination.

A directory that is there already needs no work, whatever links lead to it (`makeDirs_of_isDir`).
-/

namespace LuaTree.Store

open PathText

variable {s t : Store} {cwd a : Location} {p : PathText} {way : List Name} {n : Name}

/-! ## Obstacles -/

/-- What keeps one from creating directories on the way down from `a`: a name that is too long, or
something other than a directory. Behind a free name everything is free. -/
def obstacle (s : Store) (a : Location) : List Name → Option Errno
  | [] => none
  | n :: way =>
    if nameLimit < Utf8.byteLength n then some .nameTooLong
    else
      match s.entry? (a ++ [n]) with
      | none => none
      | some (.dir _) => obstacle s (a ++ [n]) way
      | some _ => some (if way = [] then .alreadyExists else .notDirectory)

theorem obstacle_of_noEntry (h : s.hindrance a way = some .noEntry) : s.obstacle a way = none := by
  induction way generalizing a with
  | nil => cases h
  | cons n way ih =>
    rw [hindrance] at h
    rw [obstacle]
    by_cases hn : nameLimit < Utf8.byteLength n
    · rw [if_pos hn] at h
      cases h
    · rw [if_neg hn] at h ⊢
      cases he : s.entry? (a ++ [n]) with
      | none => rfl
      | some e =>
        rw [he] at h
        cases e with
        | dir mode => exact ih h
        | file _ | link _ | fifo | device _ => cases h

/-- Behind a missing directory there is nothing. -/
theorem entry_of_noEntry (rooted : s.Rooted) (h : s.hindrance a way = some .noEntry)
    (rest : List Name) : s.entry? (a ++ way ++ rest) = none := by
  induction way generalizing a with
  | nil => cases h
  | cons n way ih =>
    rw [hindrance] at h
    rw [List.append_cons]
    split at h
    · cases h
    · split at h
      · next he =>
        rw [List.append_assoc]
        exact rooted.nothing_below he (way ++ rest)
      · exact ih h
      · cases h

theorem short_of_noEntry (short : ∀ n ∈ way.tail, Utf8.byteLength n ≤ nameLimit)
    (h : s.hindrance a way = some .noEntry) : ∀ n ∈ way, Utf8.byteLength n ≤ nameLimit := by
  cases way with
  | nil => cases h
  | cons m way =>
    rw [hindrance] at h
    split at h
    · cases h
    · next hm =>
      intro n hn
      rcases List.mem_cons.1 hn with rfl | hn
      · exact Nat.not_lt.1 hm
      · exact short n hn

/-- An obstacle before the last name, or at it. -/
theorem obstacle_concat : s.obstacle a (way ++ [n]) =
    match s.hindrance a way with
    | some e => if e = .noEntry then none else some e
    | none =>
      if nameLimit < Utf8.byteLength n then some .nameTooLong
      else match s.entry? (a ++ way ++ [n]) with
        | none => none
        | some e => if e.isDir then none else some .alreadyExists := by
  induction way generalizing a with
  | nil =>
    rw [List.nil_append, obstacle, hindrance, List.append_nil]
    cases s.entry? (a ++ [n]) with
    | none => rfl
    | some e => cases e <;> rfl
  | cons m way ih =>
    rw [List.cons_append, obstacle, hindrance]
    split
    · rfl
    · cases s.entry? (a ++ [m]) with
      | none => rfl
      | some e =>
        cases e with
        | dir mode =>
          dsimp only
          rw [ih, List.append_assoc a [m] way]
          rfl
        | file _ | link _ | fifo | device _ =>
          have other : Errno.notDirectory ≠ .noEntry := by decide
          simp [other]

/-! ## What is there afterwards -/

/-- The store `t` is `s` with the directories that were missing on the way down from `a`. -/
structure Filled (s t : Store) (a : Location) (way : List Name) : Prop where
  umask : t.umask = s.umask
  inodes : t.inodes = s.inodes
  kept : ∀ {loc e}, s.entry? loc = some e → t.entry? loc = some e
  new : ∀ {loc e}, s.entry? loc = none → t.entry? loc = some e →
    e = .dir (s.masked 0o777) ∧ ∃ front, front <+: way ∧ front ≠ [] ∧ loc = a ++ front
  there : ∀ front, front <+: way → t.holdsDir (a ++ front)

theorem Filled.refl (dirs : ∀ front, front <+: way → s.holdsDir (a ++ front)) : Filled s s a way where
  umask := rfl
  inodes := rfl
  kept := fun h => h
  new := fun h h' => absurd (h.symm.trans h') (by simp)
  there := dirs

theorem Filled.keeps (h : Filled s t a way) : Keeps s t := fun _ _ he _ => h.kept he

theorem Filled.inode (h : Filled s t a way) (i : Nat) : t.inode i = s.inode i := by
  rw [Store.inode, Store.inode, h.inodes]

theorem Filled.sound (h : Filled s t a way) (sound : s.Sound cwd) (names : ∀ n ∈ way, Lawful n) :
    t.Sound cwd := by
  refine sound.mono (fun loc hd => h.keeps.holdsDir hd) (fun loc n e he => ?_) fun loc i he => ?_
  · cases hs : s.entry? (loc ++ [n]) with
    | some e' => exact .inl ⟨e', rfl⟩
    | none =>
      obtain ⟨_, front, hp, hne, heq⟩ := h.new hs he
      obtain ⟨init, m, rfl⟩ := (List.eq_nil_or_concat' front).resolve_left hne
      rw [← List.append_assoc] at heq
      obtain ⟨rfl, rfl⟩ := List.append_inj' heq rfl |>.imp_right List.singleton_inj.1
      refine .inr ⟨h.there init (List.IsPrefix.trans ⟨[n], rfl⟩ hp), names n (hp.subset ?_)⟩
      exact List.mem_append_right _ List.mem_cons_self
  · rw [h.inodes]
    cases hs : s.entry? loc with
    | some e =>
      obtain rfl := Option.some.inj ((h.kept hs).symm.trans he)
      exact sound.kept hs
    | none => cases (h.new hs he).1

theorem Filled.linkFree (h : Filled s t a way) {b : Location} {ms : List Name}
    (free : LinkFree s b ms) : LinkFree t b ms := by
  intro front hp hne target he
  cases hs : s.entry? (b ++ front) with
  | some e =>
    obtain rfl := Option.some.inj ((h.kept hs).symm.trans he)
    exact free front hp hne target hs
  | none => cases (h.new hs he).1

/-- One directory more, below those that are there. -/
theorem Filled.snoc (h : Filled s t a way) (he : t.entry? (a ++ way ++ [n]) = none) :
    Filled s (t.put (a ++ way ++ [n]) (.dir (t.masked 0o777))) a (way ++ [n]) where
  umask := h.umask
  inodes := h.inodes
  kept := by
    intro loc e hs
    have ht := h.kept hs
    rw [entry?_put, if_neg]
    · exact ht
    · rintro rfl
      cases he.symm.trans ht
  new := by
    intro loc e hs hu
    rw [entry?_put] at hu
    split at hu
    · next heq =>
      cases hu
      refine ⟨?_, way ++ [n], List.prefix_rfl, List.concat_ne_nil n way, by rw [heq, List.append_assoc]⟩
      rw [masked, h.umask, masked]
    · obtain ⟨hd, front, hp, hne, heq⟩ := h.new hs hu
      exact ⟨hd, front, hp.trans ⟨[n], rfl⟩, hne, heq⟩
  there := by
    intro front hp
    rw [holdsDir, entry?_put]
    split
    · rfl
    · next hne =>
      rcases List.prefix_concat_iff.1 hp with rfl | hp
      · exact absurd (List.append_assoc _ _ _).symm hne
      · exact h.there front hp

/-! ## Creating directories -/

theorem makeDirsAt_cons_ok {above : List PathText} (h : s.makeDir cwd p = .ok t) :
    s.makeDirsAt cwd (p :: above) = (.ok (), t) := by
  rw [makeDirsAt, h]

/-- Unless it is the parent that is missing, nothing more is tried. -/
theorem makeDirsAt_cons_error {above : List PathText} {cause : IoError}
    (h : s.makeDir cwd p = .error cause) (hc : cause ≠ .os .noEntry ∨ above = []) :
    s.makeDirsAt cwd (p :: above) = (if s.isDir cwd p then .ok () else .error cause, s) := by
  rw [makeDirsAt, h]
  dsimp only
  rw [if_neg]
  rw [Bool.and_eq_true, decide_eq_true_eq, decide_eq_true_eq, not_and_or, not_not]
  exact hc

theorem makeDirsAt_cons_refused {above : List PathText} {e : Errno}
    (h : s.makeDir cwd p = .error (.os e)) (hc : e ≠ .noEntry) (no : ¬s.isDir cwd p) :
    s.makeDirsAt cwd (p :: above) = (.error (.os e), s) := by
  rw [makeDirsAt_cons_error h (.inl fun heq => hc (IoError.os.inj heq)), if_neg no]

/-- Once what is missing above it has been created, the path is tried again. -/
theorem makeDirsAt_cons_again {above : List PathText}
    (h : s.makeDir cwd p = .error (.os .noEntry)) (hne : above ≠ [])
    (habove : s.makeDirsAt cwd above = (.ok (), t)) :
    s.makeDirsAt cwd (p :: above) = t.makeDirsAt cwd [p] := by
  rw [makeDirsAt, h]
  dsimp only
  rw [if_pos (by simpa using hne), habove, makeDirsAt]
  simp

theorem makeDirsAt_cons_above {above : List PathText} {cause : IoError}
    (h : s.makeDir cwd p = .error (.os .noEntry)) (hne : above ≠ [])
    (habove : s.makeDirsAt cwd above = (.error cause, t)) :
    s.makeDirsAt cwd (p :: above) = (.error cause, t) := by
  rw [makeDirsAt, h]
  dsimp only
  rw [if_pos (by simpa using hne), habove]

theorem makeDirsAt_cons_noEntry {above : List PathText} {u : Store}
    (h : s.makeDir cwd p = .error (.os .noEntry)) (hne : above ≠ [])
    (habove : s.makeDirsAt cwd above = (.ok (), t)) (hp : t.makeDir cwd p = .ok u) :
    s.makeDirsAt cwd (p :: above) = (.ok (), u) :=
  (makeDirsAt_cons_again h hne habove).trans (makeDirsAt_cons_ok hp)

theorem ancestors_eq_cons (p : PathText) : ∃ above, ancestors p = p :: above := by
  rw [ancestors]
  cases p.length with
  | zero => exact ⟨[], rfl⟩
  | succ k =>
    rw [ancestors.climb]
    split <;> exact ⟨_, rfl⟩

/-! ## Directories that are there -/

/-- A path that leads to a directory has no name, or one that is taken. -/
theorem exists_slot_of_isDir (rooted : s.Rooted) (h : s.isDir cwd p) :
    ∃ slot, s.locate cwd p = .ok slot ∧ ∀ n, slot.name? = some n → s.entry? (slot.dir ++ [n]) ≠ none := by
  obtain ⟨loc, mode, hs⟩ := isDir_iff.1 h
  have hc : checkText p = .ok () := checkText_eq_ok.2 (checkText_of_stat? hs)
  obtain ⟨k, hk, way⟩ := leads_of_stat? hs rfl
  rw [← bareSteps_eq] at way
  rcases List.eq_nil_or_concat' (bareSteps p) with hb | ⟨front, st, hb⟩
  · have last : lastName? p = none := by rw [lastName?, hb]; rfl
    refine ⟨⟨loc, none, _⟩, locate_eq_ok_iff.2
      ⟨hc, ⟨k, hk, ?_⟩, last.symm, by simp [last], rfl⟩, fun n hn => ?_⟩
    · rw [hb] at way ⊢
      exact way
    · cases hn
  · rw [hb] at way
    -- the way to the directory is cut before its last step: that is where the path is located
    obtain ⟨i, j, dir, rfl, above, hj⟩ := way.reaches.split rfl (List.cons_ne_nil _ _)
    have taken : ∀ n, st = .enter n →
        Utf8.byteLength n ≤ nameLimit ∧ s.entry? (dir ++ [n]) ≠ none := by
      rintro n rfl
      generalize Place.entry loc (s.found loc) = place at hj
      cases hj with
      | dir he hn _ _ | link he hn _ _ _ | kept he hn _ | last he hn _ => exact ⟨hn, by simp [he]⟩
      | free _ _ hl _ => cases hl
    have last : ∀ n, lastName? p = some n → st = .enter n := by
      intro n hn
      rw [lastName?, hb, List.getLast?_concat] at hn
      cases st with
      | enter m => cases hn; rfl
      | stay | up | slash => cases hn
    refine ⟨⟨dir, lastName? p, _⟩, locate_eq_ok_iff.2
      ⟨hc, ⟨i, Nat.le_trans (Nat.le_add_right i j) hk, ?_⟩, rfl, fun n hn => ?_, rfl⟩, ?_⟩
    · rwa [hb, List.dropLast_concat]
    · obtain ⟨short, some_⟩ := taken n (last n hn)
      obtain ⟨e, he⟩ := Option.ne_none_iff_exists'.1 some_
      exact ⟨short, rooted.parent he⟩
    · exact fun n hn => (taken n (last n hn)).2

/-- Creating a directory that is there changes nothing, whatever links lead to it. -/
theorem makeDirs_of_isDir (rooted : s.Rooted) (h : s.isDir cwd p) :
    s.makeDirs cwd p = (.ok (), s) := by
  obtain ⟨⟨dir, name?, slash⟩, hl, taken⟩ := exists_slot_of_isDir rooted h
  have exists_ : s.makeDir cwd p = .error (.os .alreadyExists) := by
    rw [makeDir, hl]
    cases name? with
    | none => rfl
    | some n =>
      dsimp only [bind, Except.bind]
      cases he : s.entry? (dir ++ [n]) with
      | none => exact absurd he (taken n rfl)
      | some e => rfl
  obtain ⟨above, ha⟩ := ancestors_eq_cons p
  rw [makeDirs, ha, makeDirsAt_cons_error exists_ (.inl (by decide)), if_pos h]

/-- Nor does creating one whose path is too long. -/
theorem makeDirs_of_long (s : Store) (cwd : Location) (h0 : '\x00' ∉ p)
    (h : pathLimit ≤ Utf8.byteLength p) : (s.makeDirs cwd p).2 = s := by
  have hne : p ≠ [] := by
    rintro rfl
    exact absurd h (by decide)
  have hc := checkText_eq h0 hne
  rw [if_pos h] at hc
  have refused : s.makeDir cwd p = .error (.os .nameTooLong) := by
    rw [makeDir, locate, hc]
    rfl
  obtain ⟨above, ha⟩ := ancestors_eq_cons p
  rw [makeDirs, ha, makeDirsAt_cons_error refused (.inl (by decide))]

/-! ## Directories below a base -/

/-- What keeps one from creating the directories of a path on the way down from `a`. -/
def blockage (s : Store) (a : Location) (way : List Name) (p : PathText) : Option Errno :=
  if pathLimit ≤ Utf8.byteLength p then some .nameTooLong else s.obstacle a way

/-- Where nothing blocks, the names are short. -/
theorem short_of_blockage (h : s.blockage a way p = none)
    (short : ∀ n ∈ way.tail, Utf8.byteLength n ≤ nameLimit) :
    ∀ n ∈ way, Utf8.byteLength n ≤ nameLimit := by
  rw [blockage] at h
  split at h
  · cases h
  · cases way with
    | nil => exact fun n hn => absurd hn List.not_mem_nil
    | cons m way =>
      rw [obstacle] at h
      split at h
      · cases h
      · next hm =>
        intro n hn
        rcases List.mem_cons.1 hn with rfl | hn
        · exact Nat.not_lt.1 hm
        · exact short n hn

/-- Where the parent is a directory, creating the last one is all there is to do. -/
theorem makeDirsAt_of_hindrance {above : List PathText} (sound : s.Sound cwd)
    (approach : Approach s cwd p a (way ++ [n])) (free : LinkFree s a (way ++ [n]))
    (hl : Utf8.byteLength p < pathLimit) (hh : s.hindrance a way = none) :
    match s.obstacle a (way ++ [n]) with
    | some e => s.makeDirsAt cwd (p :: above) = (.error (.os e), s)
    | none => ∃ t, s.makeDirsAt cwd (p :: above) = (.ok (), t) ∧ Filled s t a (way ++ [n]) := by
  have make := approach.makeDir_below (free.front ⟨[n], rfl⟩)
  have isDir := approach.isDir_below free
  have dirs : ∀ front, front <+: way → s.holdsDir (a ++ front) := by
    rintro front ⟨rest, rfl⟩
    have there := holdsDir_of_hindrance approach.holdsDir hh
    rw [← List.append_assoc] at there
    by_cases hr : rest = []
    · rwa [hr, List.append_nil] at there
    · obtain ⟨mode, he⟩ := holdsDir_iff.1 there
      exact sound.holdsDir_of_below hr he
  rw [if_neg (Nat.not_le.2 hl), hh] at make
  rw [obstacle_concat, hh]
  dsimp only at make ⊢
  by_cases hn : nameLimit < Utf8.byteLength n
  · rw [if_pos hn] at make ⊢
    exact makeDirsAt_cons_refused make (by decide) fun h => absurd hn (Nat.not_lt.2 (isDir.1 h).2.2.1)
  · rw [if_neg hn] at make ⊢
    cases he : s.entry? (a ++ way ++ [n]) with
    | none =>
      rw [he] at make
      exact ⟨_, makeDirsAt_cons_ok make, (Filled.refl dirs).snoc he⟩
    | some e =>
      -- what is there is as good as what would have been created, if it is a directory
      rw [he] at make
      dsimp only
      by_cases hd : e.isDir = true
      · rw [if_pos hd]
        have other : IoError.os .alreadyExists ≠ .os .noEntry := by decide
        have there : s.holdsDir (a ++ way ++ [n]) := by rw [holdsDir, he]; exact hd
        have yes : s.isDir cwd p = true := isDir.2 ⟨hl, hh, Nat.not_lt.1 hn, there⟩
        refine ⟨s, ?_, .refl fun front hp => ?_⟩
        · rw [makeDirsAt_cons_error make (.inl other), if_pos yes]
        · rcases List.prefix_concat_iff.1 hp with rfl | hp
          · rwa [← List.append_assoc]
          · exact dirs front hp
      · rw [if_neg hd]
        refine makeDirsAt_cons_refused make (by decide) fun h => ?_
        have there := (isDir.1 h).2.2.2
        rw [holdsDir, he] at there
        exact hd there

/-- Once the directories above it have been created, what was missing can be. -/
theorem Filled.exists_makeDir (filled : Filled s t a way) (sound : s.Sound cwd)
    (approach : Approach s cwd p a (way ++ [n])) (free : LinkFree s a way)
    (short : ∀ m ∈ way ++ [n], Utf8.byteLength m ≤ nameLimit) (hl : Utf8.byteLength p < pathLimit)
    (hh : s.hindrance a way = some .noEntry) :
    ∃ u, t.makeDir cwd p = .ok u ∧ Filled s u a (way ++ [n]) := by
  have vacant : t.entry? (a ++ way ++ [n]) = none := by
    cases he : t.entry? (a ++ way ++ [n]) with
    | none => rfl
    | some e =>
      obtain ⟨_, front, hf, _, heq⟩ := filled.new (entry_of_noEntry sound.toRooted hh [n]) he
      rw [List.append_assoc, List.append_cancel_left_eq] at heq
      have := hf.length_le
      rw [← heq, List.length_append, List.length_singleton] at this
      omega
  have there : t.hindrance a way = none :=
    hindrance_of_holdsDir (fun m hm => short m (List.mem_append_left _ hm))
      fun front hf _ => filled.there front hf
  have hn : ¬nameLimit < Utf8.byteLength n :=
    Nat.not_lt.2 (short n (List.mem_append_right _ List.mem_cons_self))
  refine ⟨_, ?_, filled.snoc vacant⟩
  rw [(approach.mono filled.keeps).makeDir_below (filled.linkFree free), if_neg (Nat.not_le.2 hl), there]
  dsimp only
  rw [if_neg hn, vacant]

theorem Base.ancestors_concat {cs : List Component} (base : Base s cwd cs a)
    (names : ∀ m ∈ way ++ [n], IsName m) : ancestors (ofComponents (cs ++ (way ++ [n]).map .name)) =
      ofComponents (cs ++ (way ++ [n]).map .name) ::
        if cs ++ way.map .name = [] then [] else ancestors (ofComponents (cs ++ way.map .name)) := by
  have normal : Normal (cs ++ way.map .name) :=
    base.normal.append_names fun m hm => names m (List.mem_append_left _ hm)
  rw [List.map_append, ← List.append_assoc]
  exact ancestors_ofComponents normal (.name (names n (List.mem_append_right _ List.mem_cons_self)))

/-- Creating directories below a base: all or nothing, and nothing only where something blocks. -/
theorem makeDirs_below {cs : List Component} (sound : s.Sound cwd) (base : Base s cwd cs a)
    (names : ∀ n ∈ way, IsName n) (nul : ∀ n ∈ way, '\x00' ∉ n)
    (short : ∀ n ∈ way.tail, Utf8.byteLength n ≤ nameLimit) (free : LinkFree s a way)
    (hne : way ≠ []) (hp : p = ofComponents (cs ++ way.map .name)) :
    match s.blockage a way p with
    | some e => s.makeDirs cwd p = (.error (.os e), s)
    | none => ∃ t, s.makeDirs cwd p = (.ok (), t) ∧ Filled s t a way := by
  -- a path is tried before the one above it, so this is an induction on the last name
  induction way using List.reverseRecOn generalizing p with
  | nil => exact absurd rfl hne
  | append_singleton way n ih =>
    have approach : Approach s cwd p a (way ++ [n]) := hp ▸ base.approach names nul hne
    have freeAbove : LinkFree s a way := free.front ⟨[n], rfl⟩
    have make := approach.makeDir_below freeAbove
    have isDir := approach.isDir_below free
    rw [makeDirs, hp, base.ancestors_concat names, ← hp, blockage]
    by_cases hl : pathLimit ≤ Utf8.byteLength p
    · rw [if_pos hl] at make ⊢
      exact makeDirsAt_cons_refused make (by decide) fun h => absurd hl (Nat.not_le.2 (isDir.1 h).1)
    · rw [if_neg hl] at make ⊢
      cases hh : s.hindrance a way with
      | none => exact makeDirsAt_of_hindrance sound approach free (Nat.not_le.1 hl) hh
      | some e =>
        rw [hh] at make
        rw [obstacle_concat, hh]
        dsimp only at make ⊢
        by_cases hc : e = .noEntry
        · -- the directory above is missing as well, and has to be created first
          subst hc
          rw [if_pos rfl]
          have hw : way ≠ [] := by
            rintro rfl
            cases hh
          have hcs : ¬cs ++ way.map .name = [] := by simp [hw]
          rw [if_neg hcs]
          rw [List.tail_append_of_ne_nil hw] at short
          have shortAbove : ∀ m ∈ way.tail, Utf8.byteLength m ≤ nameLimit := fun m hm =>
            short m (List.mem_append_left _ hm)
          have shorter : Utf8.byteLength (ofComponents (cs ++ way.map .name)) ≤ Utf8.byteLength p := by
            have hn : IsName n := names n (List.mem_append_right _ List.mem_cons_self)
            rw [hp, List.map_append, ← List.append_assoc, List.map_singleton, ofComponents_snoc]
            exact byteLength_le_join _ hn.no_separator
          have ih := ih (fun m hm => names m (List.mem_append_left _ hm))
            (fun m hm => nul m (List.mem_append_left _ hm)) shortAbove freeAbove hw rfl
          rw [blockage, if_neg (by omega), obstacle_of_noEntry hh] at ih
          obtain ⟨t, made, filled⟩ := ih
          have shortAll : ∀ m ∈ way ++ [n], Utf8.byteLength m ≤ nameLimit := by
            intro m hm
            rcases List.mem_append.1 hm with hm | hm
            · exact short_of_noEntry shortAbove hh m hm
            · exact short m (List.mem_append_right _ hm)
          obtain ⟨u, rest, filled⟩ :=
            filled.exists_makeDir sound approach freeAbove shortAll (Nat.not_le.1 hl) hh
          have hne : ancestors (ofComponents (cs ++ way.map .name)) ≠ [] := by
            obtain ⟨above, more⟩ := ancestors_eq_cons (ofComponents (cs ++ way.map .name))
            rw [more]
            exact List.cons_ne_nil _ _
          exact ⟨u, makeDirsAt_cons_noEntry make hne made rest, filled⟩
        · rw [if_neg hc]
          refine makeDirsAt_cons_refused make hc fun h => ?_
          rw [(isDir.1 h).2.1] at hh
          cases hh

end LuaTree.Store

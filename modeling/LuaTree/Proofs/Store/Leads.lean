import LuaTree.Proofs.Store.Reaches

/-!
# The way to a name

`Reaches` says where a lookup ends; `Leads` follows the steps before the end, over directories and links
alone. So it needs nothing of the place that it comes to, and it holds in every store that keeps its
directories and links (`Leads.mono`). A lookup is taken apart with it (`Reaches.split`) and put together
again (`Leads.append`), and `locate` is the way to the directory of the last name (`locate_eq_ok_iff`).

A path `Designates` the location of its last name. Where a store keeps its directories and links, paths
designate what they designated, and lookups end where they ended (`Reaches.mono`).
-/

namespace LuaTree

namespace Store

/-- From `a` the steps lead on to `b`, over `k` links. -/
inductive Leads (s : Store) : Nat → Location → List Step → Location → Prop
  | here {a} : Leads s 0 a [] a
  | stay {k a ahead b} : Leads s k a ahead b → Leads s k a (.stay :: ahead) b
  | slash {k a ahead b} : Leads s k a ahead b → Leads s k a (.slash :: ahead) b
  | up {k a ahead b} : Leads s k a.dropLast ahead b → Leads s k a (.up :: ahead) b
  | dir {k a n mode ahead b} : s.entry? (a ++ [n]) = some (.dir mode) →
      Utf8.byteLength n ≤ nameLimit → Leads s k (a ++ [n]) ahead b → Leads s k a (.enter n :: ahead) b
  | link {k a n target ahead b} : s.entry? (a ++ [n]) = some (.link target) →
      Utf8.byteLength n ≤ nameLimit → Leads s k (start a target) (Step.ofPath target ++ ahead) b →
      Leads s (k + 1) a (.enter n :: ahead) b

/-- What stands at a location, for a lookup that has got there: a directory that is gone still is one. -/
abbrev found (s : Store) (a : Location) : Entry := ( s.entry? a).getD (.dir removedMode)

variable {s t : Store} {last : LastName} {k l : Nat} {a b c cwd dir loc : Location}
  {steps rest xs ys : List Step} {place place' : Place} {e : Entry} {n : Name} {p : PathText}

/-- Where a lookup ends is one place. -/
theorem Reaches.unique (h : Reaches s last k a steps place) (h' : Reaches s last l a steps place') :
    place = place' := by
  have same := (tour_of_reaches h (max k l) (Nat.le_max_left k l)).symm.trans
    (tour_of_reaches h' (max k l) (Nat.le_max_right k l))
  cases same
  rfl

/-! ## Taking a lookup apart -/

/-- The two ends that a walk can have before its steps are taken do not come up before its last steps. -/
theorem not_end_of_rest (hl : last = .follow ∨ ∃ st more, rest = st :: more ∧ st ≠ .slash)
    (ahead : List Step) : ¬(last = .create ∧ ahead ++ rest = [.slash]) ∧
      ¬(last = .keep ∧ ahead ++ rest = []) := by
  rcases hl with rfl | ⟨st, more, rfl, hst⟩
  · simp
  · cases ahead with
    | nil => exact ⟨fun h => hst (List.cons.inj h.2).1, by simp⟩
    | cons st ahead => simp

/-- A lookup can go on where steps lead, as long as its end is not mistaken for theirs. -/
theorem Leads.append (h : Leads s k a steps b) (hr : Reaches s last l b rest place)
    (hl : last = .follow ∨ ∃ st more, rest = st :: more ∧ st ≠ .slash) :
    Reaches s last (k + l) a (steps ++ rest) place := by
  induction h with
  | here => rwa [Nat.zero_add]
  | stay _ ih => exact .stay (ih hr)
  | slash _ ih => exact .slash (ih hr)
  | up _ ih => exact .up (ih hr)
  | dir he hn _ ih => exact .dir he hn (not_end_of_rest hl _).1 (ih hr)
  | @link k _ _ target ahead _ he hn _ ih =>
    rw [Nat.add_right_comm]
    refine .link he hn (not_end_of_rest hl _).1 (not_end_of_rest hl _).2 ?_
    show Reaches s last (k + l) _ (Step.ofPath target ++ (ahead ++ rest)) place
    rw [← List.append_assoc]
    exact ih hr

theorem Leads.trans (h : Leads s k a steps b) (h' : Leads s l b rest c) :
    Leads s (k + l) a (steps ++ rest) c := by
  induction h with
  | here => rwa [Nat.zero_add]
  | stay _ ih => exact .stay (ih h')
  | slash _ ih => exact .slash (ih h')
  | up _ ih => exact .up (ih h')
  | dir he hn _ ih => exact .dir he hn (ih h')
  | @link k _ _ target ahead _ he hn _ ih =>
    rw [Nat.add_right_comm]
    refine .link he hn ?_
    show Leads s (k + l) _ (Step.ofPath target ++ (ahead ++ rest)) c
    rw [← List.append_assoc]
    exact ih h'

/-- The same for the lookup itself. -/
theorem Leads.tour_append (h : Leads s k a steps b)
    (hl : last = .follow ∨ ∃ st more, rest = st :: more ∧ st ≠ .slash) {links : Nat} (hk : k ≤ links) :
    s.tour last links a (steps ++ rest) = s.tour last (links - k) b rest := by
  induction h generalizing links with
  | here => rw [List.nil_append, Nat.sub_zero]
  | stay _ ih => rw [List.cons_append, tour_stay, ih hk]
  | slash _ ih => rw [List.cons_append, tour_slash, ih hk]
  | up _ ih => rw [List.cons_append, tour_up, ih hk]
  | dir hd hn _ ih =>
    rw [List.cons_append, tour_enter, if_neg (not_end_of_rest hl _).1, if_neg (Nat.not_lt.2 hn), hd]
    exact ih hk
  | link hd hn _ ih =>
    obtain ⟨m, rfl⟩ : ∃ m, links = m + 1 := ⟨links - 1, by omega⟩
    rw [List.cons_append, tour_enter, if_neg (not_end_of_rest hl _).1, if_neg (Nat.not_lt.2 hn), hd]
    simp only [if_neg (not_end_of_rest hl _).2, detour]
    rw [← List.append_assoc, ih (Nat.le_of_succ_le_succ hk), Nat.add_sub_add_right]

theorem Leads.reaches (h : Leads s k a steps b) : Reaches s .follow k a steps (.entry b (s.found b)) := by
  have here : Reaches s .follow 0 b [] (.entry b (s.found b)) := .here
  have there := h.append here (.inl rfl)
  rwa [List.append_nil] at there

theorem Reaches.from_here (h : Reaches s last k a steps place) {back : List Step}
    (hs : steps = [] ++ back) : ∃ i j m,
      k = i + j ∧ Leads s i a [] m ∧ Reaches s last j m back place := by
  rw [List.nil_append] at hs
  exact ⟨0, k, a, (Nat.zero_add k).symm, .here, hs ▸ h⟩

/-- Before the last steps of a lookup, its steps lead on. -/
theorem Reaches.split (h : Reaches s last k a steps place) {front back : List Step}
    (hs : steps = front ++ back) (hb : back ≠ []) : ∃ i j m,
      k = i + j ∧ Leads s i a front m ∧ Reaches s last j m back place := by
  -- a link puts its target in front, so this is an induction on the walk and not on `front`
  induction h generalizing front with
  | here => exact absurd (List.append_eq_nil_iff.1 hs.symm).2 hb
  | stay h ih =>
    cases front with
    | nil => exact (Reaches.stay h).from_here hs
    | cons st front =>
      obtain ⟨rfl, ahead_eq⟩ := List.cons.inj hs
      obtain ⟨i, j, m, hk, hi, hj⟩ := ih ahead_eq
      exact ⟨i, j, m, hk, .stay hi, hj⟩
  | slash h ih =>
    cases front with
    | nil => exact (Reaches.slash h).from_here hs
    | cons st front =>
      obtain ⟨rfl, ahead_eq⟩ := List.cons.inj hs
      obtain ⟨i, j, m, hk, hi, hj⟩ := ih ahead_eq
      exact ⟨i, j, m, hk, .slash hi, hj⟩
  | up h ih =>
    cases front with
    | nil => exact (Reaches.up h).from_here hs
    | cons st front =>
      obtain ⟨rfl, ahead_eq⟩ := List.cons.inj hs
      obtain ⟨i, j, m, hk, hi, hj⟩ := ih ahead_eq
      exact ⟨i, j, m, hk, .up hi, hj⟩
  | dir he hn hc h ih =>
    cases front with
    | nil => exact (Reaches.dir he hn hc h).from_here hs
    | cons st front =>
      obtain ⟨rfl, ahead_eq⟩ := List.cons.inj hs
      obtain ⟨i, j, m, hk, hi, hj⟩ := ih ahead_eq
      exact ⟨i, j, m, hk, .dir he hn hi, hj⟩
  | @link _ _ _ target ahead _ he hn hc hl h ih =>
    cases front with
    | nil => exact (Reaches.link he hn hc hl h).from_here hs
    | cons st front =>
      obtain ⟨rfl, ahead_eq⟩ := List.cons.inj hs
      have detour_eq : Step.ofPath target ++ ahead = (Step.ofPath target ++ front) ++ back := by
        rw [List.append_assoc]
        exact congrArg _ ahead_eq
      obtain ⟨i, j, m, hk, hi, hj⟩ := ih detour_eq
      exact ⟨i + 1, j, m, by omega, .link he hn hi, hj⟩
  | kept he hn hl =>
    cases front with
    | nil => exact (Reaches.kept he hn hl).from_here hs
    | cons st front => exact absurd (List.append_eq_nil_iff.1 (List.cons.inj hs).2.symm).2 hb
  | last he hn hp =>
    cases front with
    | nil => exact (Reaches.last he hn hp).from_here hs
    | cons st front => exact absurd (List.append_eq_nil_iff.1 (List.cons.inj hs).2.symm).2 hb
  | free he hn hl ha =>
    cases front with
    | nil => exact (Reaches.free he hn hl ha).from_here hs
    | cons st front => exact absurd (List.append_eq_nil_iff.1 (List.cons.inj hs).2.symm).2 hb

/-- The last name on a way to a directory is that directory's, or a link's. -/
theorem Leads.split_last (h : Leads s k a steps b) {front : List Step} (hs : steps = front ++ [.enter n]) :
    ∃ i ≤ k, ∃ m, Leads s i a front m ∧ ((∃ mode, s.entry? (m ++ [n]) = some (.dir mode)) ∧ b = m ++ [n] ∨
      ∃ target, s.entry? (m ++ [n]) = some (.link target)) := by
  induction h generalizing front with
  | here => exact absurd hs.symm (List.concat_ne_nil _ _)
  | stay _ ih =>
    cases front with
    | nil => cases hs
    | cons st front =>
      obtain ⟨rfl, ahead_eq⟩ := List.cons.inj hs
      obtain ⟨i, hi, m, way, last⟩ := ih ahead_eq
      exact ⟨i, hi, m, .stay way, last⟩
  | slash _ ih =>
    cases front with
    | nil => cases hs
    | cons st front =>
      obtain ⟨rfl, ahead_eq⟩ := List.cons.inj hs
      obtain ⟨i, hi, m, way, last⟩ := ih ahead_eq
      exact ⟨i, hi, m, .slash way, last⟩
  | up _ ih =>
    cases front with
    | nil => cases hs
    | cons st front =>
      obtain ⟨rfl, ahead_eq⟩ := List.cons.inj hs
      obtain ⟨i, hi, m, way, last⟩ := ih ahead_eq
      exact ⟨i, hi, m, .up way, last⟩
  | dir he hn h ih =>
    cases front with
    | nil =>
      cases hs
      cases h
      exact ⟨0, Nat.le_refl 0, _, .here, .inl ⟨⟨_, he⟩, rfl⟩⟩
    | cons st front =>
      obtain ⟨rfl, ahead_eq⟩ := List.cons.inj hs
      obtain ⟨i, hi, m, way, last⟩ := ih ahead_eq
      exact ⟨i, hi, m, .dir he hn way, last⟩
  | @link k a _ target ahead _ he hn _ ih =>
    cases front with
    | nil =>
      cases hs
      exact ⟨0, Nat.zero_le _, a, .here, .inr ⟨target, he⟩⟩
    | cons st front =>
      obtain ⟨rfl, ahead_eq⟩ := List.cons.inj hs
      have detour_eq : Step.ofPath target ++ ahead = (Step.ofPath target ++ front) ++ [.enter n] := by
        rw [List.append_assoc]
        exact congrArg _ ahead_eq
      obtain ⟨i, hi, m, way, last⟩ := ih detour_eq
      exact ⟨i + 1, Nat.succ_le_succ hi, m, .link he hn way, last⟩

theorem Leads.unique (h : Leads s k a steps b) (h' : Leads s l a steps c) : b = c := by
  cases h.reaches.unique h'.reaches
  rfl

/-- Followed to a directory, steps lead on to it. -/
theorem Reaches.leads_of_slash (h : Reaches s .follow k a (steps ++ [.slash]) place) :
    ∃ b, Leads s k a steps b ∧ place = .entry b (s.found b) := by
  obtain ⟨i, j, m, rfl, hi, hj⟩ := h.split rfl (List.cons_ne_nil _ _)
  cases hj with
  | slash hj =>
    cases hj
    exact ⟨m, hi, rfl⟩

theorem Leads.reaches_slash (h : Leads s k a steps b) :
    Reaches s .follow k a (steps ++ [.slash]) (.entry b (s.found b)) :=
  h.append (.slash .here) (.inl rfl)

/-- Nothing but directories stands where steps lead. -/
theorem Leads.passable (h : Leads s k a steps b) (way : Passable s a) : Passable s b := by
  induction h with
  | here => exact way
  | stay _ ih | slash _ ih => exact ih way
  | @up _ a _ _ _ ih => exact ih fun b e hb => way b e (hb.trans (List.dropLast_prefix a))
  | dir he _ _ ih => exact ih (way.snoc he)
  | @link _ _ _ target _ _ _ _ _ ih => exact ih (way.start target)

theorem Passable.found_isDir (way : Passable s a) : (s.found a).isDir := by
  cases he : s.entry? a with
  | none =>
    rw [found, he]
    rfl
  | some e =>
    rw [found, he]
    exact way a e (List.prefix_refl a) he

theorem Rooted.passable (rooted : s.Rooted) (h : s.holdsDir a) : Passable s a := by
  rintro b e ⟨way, rfl⟩ he
  have above : s.holdsDir b := by
    rcases eq_or_ne way [] with rfl | hne
    · rwa [List.append_nil] at h
    · obtain ⟨mode, hd⟩ := holdsDir_iff.1 h
      exact rooted.holdsDir_of_below hne hd
  obtain ⟨mode, hd⟩ := holdsDir_iff.1 above
  cases he.symm.trans hd
  rfl

/-- On the way to a directory that has been removed, nothing stands but the directories that are left. -/
theorem WellNamed.passable_of_removed (wellNamed : s.WellNamed) (gone : s.Removed a) : Passable s a := by
  obtain ⟨front, n, rest, rfl, above, unlawful⟩ := gone
  intro b e hb he
  rcases List.prefix_or_prefix_of_prefix hb (List.prefix_append front (n :: rest)) with hf | ⟨way, rfl⟩
  · exact wellNamed.passable above b e hf he
  · cases way with
    | nil =>
      rw [List.append_nil] at he
      exact wellNamed.passable above front e List.prefix_rfl he
    | cons m way =>
      -- behind the directories that are left there is no entry
      obtain ⟨rfl, _⟩ := List.cons_prefix_cons.1 ((List.prefix_append_right_inj front).1 hb)
      exact absurd (wellNamed.lawful_of_mem he m List.mem_cons_self) unlawful

theorem Sound.passable (sound : s.Sound cwd) : Passable s cwd :=
  sound.here.elim sound.toRooted.passable sound.wellNamed.passable_of_removed

theorem Leads.holdsDir (h : Leads s k a steps b) (rooted : s.Rooted) (ha : s.holdsDir a) :
    s.holdsDir b := by
  induction h with
  | here => exact ha
  | stay _ ih | slash _ ih => exact ih ha
  | up _ ih => exact ih (rooted.holdsDir_dropLast ha)
  | dir he _ _ ih => exact ih (holdsDir_of_entry he)
  | @link _ _ _ target _ _ _ _ _ ih => exact ih (holdsDir_start rooted ha target)

/-- From a directory that is there, a lookup ends at what is there. -/
theorem Reaches.entry_of_holdsDir (h : Reaches s last k a steps (.entry b e)) (rooted : s.Rooted)
    (ha : s.holdsDir a) : s.entry? b = some e := by
  generalize hp : Place.entry b e = place at h
  induction h with
  | here =>
    cases hp
    obtain ⟨mode, he⟩ := holdsDir_iff.1 ha
    rw [he]
    rfl
  | stay _ ih | slash _ ih => exact ih ha hp
  | up _ ih => exact ih (rooted.holdsDir_dropLast ha) hp
  | dir he _ _ _ ih => exact ih (holdsDir_of_entry he) hp
  | @link _ _ _ target _ _ _ _ _ _ _ ih => exact ih (holdsDir_start rooted ha target) hp
  | kept he _ _ | last he _ _ =>
    cases hp
    exact he
  | free _ _ _ _ => cases hp

/-- A store as a process can meet it whose working directory may be gone: nothing but directories stands
on the way there. -/
structure Coherent (s : Store) (cwd : Location) : Prop extends Rooted s where
  kept : ∀ {loc i}, s.entry? loc = some (.file i) → i ∈ s.inodes.keys
  way : Passable s cwd

theorem Sound.coherent (sound : s.Sound cwd) : s.Coherent cwd :=
  ⟨sound.toRooted, sound.kept, sound.passable⟩

/-! ## Stores that keep their directories and links -/

theorem Leads.mono (h : Leads s k a steps b) (keeps : Keeps s t) : Leads t k a steps b := by
  induction h with
  | here => exact .here
  | stay _ ih => exact .stay ih
  | slash _ ih => exact .slash ih
  | up _ ih => exact .up ih
  | dir he hn _ ih => exact .dir (keeps _ _ he rfl) hn ih
  | link he hn _ ih => exact .link (keeps _ _ he rfl) hn ih

/-- A lookup still ends at a location where there is what there was. -/
theorem Reaches.mono (h : Reaches s last k a steps (.entry b e)) (keeps : Keeps s t)
    (same : t.entry? b = s.entry? b) : Reaches t last k a steps (.entry b e) := by
  generalize hp : Place.entry b e = place at h
  induction h with
  | here =>
    cases hp
    rw [← same]
    exact .here
  | stay _ ih => exact .stay (ih hp)
  | slash _ ih => exact .slash (ih hp)
  | up _ ih => exact .up (ih hp)
  | dir he hn hc _ ih => exact .dir (keeps _ _ he rfl) hn hc (ih hp)
  | link he hn hc hl _ ih => exact .link (keeps _ _ he rfl) hn hc hl (ih hp)
  | kept he hn hl =>
    cases hp
    exact .kept (same.trans he) hn hl
  | last he hn hp' =>
    cases hp
    exact .last (same.trans he) hn hp'
  | free _ _ _ _ => cases hp

theorem entryAt?_eq_ok : s.entryAt? cwd last p = .ok (b, e) ↔ s.lookup cwd last p = .ok (.entry b e) := by
  unfold entryAt?
  cases s.lookup cwd last p with
  | error cause => simp [bind, Except.bind]
  | ok place => cases place <;> simp [bind, Except.bind]

theorem entryAt?_mono (h : s.entryAt? cwd last p = .ok (b, e)) (keeps : Keeps s t)
    (same : t.entry? b = s.entry? b) : t.entryAt? cwd last p = .ok (b, e) := by
  obtain ⟨hc, k, hk, hr⟩ := lookup_eq_ok.1 (entryAt?_eq_ok.1 h)
  exact entryAt?_eq_ok.2 (lookup_eq_ok.2 ⟨hc, k, hk, hr.mono keeps same⟩)

/-! ## Locating -/

theorem bareSteps_eq (p : PathText) : bareSteps p = Step.ofText p := by
  rw [bareSteps, Step.ofPath, List.filter_append]
  have slash : (if p.getLast? = some '/' then [Step.slash] else []).filter (· ≠ .slash) = [] := by
    split <;> rfl
  rw [slash, List.append_nil]
  exact Step.filter_ofText p

theorem ofPath_eq (p : PathText) : Step.ofPath p =
    bareSteps p ++ if p.getLast? = some '/' then [.slash] else [] := by
  rw [bareSteps_eq]
  rfl

/-- A path that leads on to a location leads to what stands there. -/
theorem Leads.stat? (h : Leads s k (start cwd p) (bareSteps p) b) (hc : checkText p = .ok ())
    (hk : k ≤ linkLimit) : s.stat? cwd p = .ok (b, s.found b) := by
  refine stat?_eq_ok_iff_lookup.2 (lookup_eq_ok.2 ⟨hc, k, hk, ?_⟩)
  rw [ofPath_eq]
  split
  · exact h.reaches_slash
  · rw [List.append_nil]
    exact h.reaches

theorem lastName?_eq_some : lastName? p = some n ↔ ∃ front, bareSteps p = front ++ [.enter n] := by
  unfold lastName?
  constructor
  · intro h
    split at h
    · next m hm =>
      cases h
      obtain ⟨front, hf⟩ := List.getLast?_eq_some_iff.1 hm
      exact ⟨front, hf⟩
    · cases h
  · rintro ⟨front, hf⟩
    rw [hf, List.getLast?_concat]

/-- What is located is where the steps before the last name lead, and a name is only located in a
directory that is there. -/
theorem locate_eq_ok_iff {slot : Slot} : s.locate cwd p = .ok slot ↔ checkText p = .ok () ∧
    (∃ k ≤ linkLimit, Leads s k (start cwd p) (bareSteps p).dropLast slot.dir) ∧
    slot.name? = lastName? p ∧
    (∀ n, lastName? p = some n → Utf8.byteLength n ≤ nameLimit ∧ s.holdsDir slot.dir) ∧
    slot.slash = decide (p.getLast? = some '/') := by
  cases hc : checkText p with
  | error cause =>
    rw [locate, hc]
    simp [bind, Except.bind]
  | ok _ =>
    rw [locate_eq s cwd hc]
    constructor
    · intro h
      cases ht : s.tour .follow linkLimit (start cwd p) ((bareSteps p).dropLast ++ [.slash]) with
      | error e =>
        rw [ht] at h
        cases h
      | ok place =>
        -- the steps before the last name are followed to a directory
        obtain ⟨k, hk, hr⟩ := reaches_of_tour ht
        obtain ⟨dir, hl, rfl⟩ := hr.leads_of_slash
        rw [ht] at h
        dsimp only at h
        cases hn : lastName? p with
        | none =>
          rw [hn] at h
          cases h
          exact ⟨rfl, ⟨k, hk, hl⟩, rfl, by simp, rfl⟩
        | some n =>
          rw [hn] at h
          dsimp only at h
          split at h
          · cases h
          · next short =>
            split at h
            · cases h
            · next there =>
              cases h
              refine ⟨rfl, ⟨k, hk, hl⟩, rfl, fun m hm => ?_, rfl⟩
              cases hm
              exact ⟨Nat.not_lt.1 short, by simpa using there⟩
    · rintro ⟨_, ⟨k, hk, hl⟩, hname, hlast, hslash⟩
      rw [tour_of_reaches hl.reaches_slash linkLimit hk]
      obtain ⟨dir, name?, slash⟩ := slot
      dsimp only at hname hlast hslash hl ⊢
      subst hname hslash
      cases hn : lastName? p with
      | none => rfl
      | some n =>
        obtain ⟨short, there⟩ := hlast n hn
        dsimp only
        rw [if_neg (Nat.not_lt.2 short), there]
        rfl

theorem locate_mono {slot : Slot} (h : s.locate cwd p = .ok slot) (keeps : Keeps s t) :
    t.locate cwd p = .ok slot := by
  obtain ⟨hc, ⟨k, hk, hl⟩, hname, hlast, hslash⟩ := locate_eq_ok_iff.1 h
  refine locate_eq_ok_iff.2 ⟨hc, ⟨k, hk, hl.mono keeps⟩, hname, fun n hn => ?_, hslash⟩
  exact (hlast n hn).imp_right keeps.holdsDir

/-- The path names the location; a link that stands there is not followed. -/
def Designates (s : Store) (cwd : Location) (p : PathText) (loc : Location) : Prop :=
  ∃ dir n slash, s.locate cwd p = .ok { dir, name? := some n, slash } ∧ loc = dir ++ [n]

theorem Designates.mono (h : Designates s cwd p loc) (keeps : Keeps s t) : Designates t cwd p loc := by
  obtain ⟨dir, n, slash, hl, rfl⟩ := h
  exact ⟨dir, n, slash, locate_mono hl keeps, rfl⟩

theorem Designates.unique {loc' : Location} (h : Designates s cwd p loc) (h' : Designates s cwd p loc') :
    loc = loc' := by
  obtain ⟨dir, n, slash, hl, rfl⟩ := h
  obtain ⟨dir', n', slash', hl', rfl⟩ := h'
  cases hl.symm.trans hl'
  rfl

/-- A path names the location of its last name in the directory that the steps before it lead to. -/
theorem designates_iff : Designates s cwd p loc ↔ checkText p = .ok () ∧ ∃ front n dir,
    bareSteps p = front ++ [.enter n] ∧ loc = dir ++ [n] ∧ Utf8.byteLength n ≤ nameLimit ∧
    s.holdsDir dir ∧ ∃ k ≤ linkLimit, Leads s k (start cwd p) front dir := by
  constructor
  · rintro ⟨dir, n, slash, h, rfl⟩
    obtain ⟨hc, ⟨k, hk, hl⟩, hname, hlast, _⟩ := locate_eq_ok_iff.1 h
    obtain ⟨front, hf⟩ := lastName?_eq_some.1 hname.symm
    rw [hf, List.dropLast_concat] at hl
    obtain ⟨short, there⟩ := hlast n hname.symm
    exact ⟨hc, front, n, dir, hf, rfl, short, there, k, hk, hl⟩
  · rintro ⟨hc, front, n, dir, hf, rfl, short, there, k, hk, hl⟩
    have hname := lastName?_eq_some.2 ⟨front, hf⟩
    refine ⟨dir, n, _, locate_eq_ok_iff.2 ⟨hc, ⟨k, hk, ?_⟩, hname.symm, fun m hm => ?_, rfl⟩, rfl⟩
    · rwa [hf, List.dropLast_concat]
    · cases hname.symm.trans hm
      exact ⟨short, there⟩

/-! ## Creating a directory -/

theorem Gains.keeps (gains : Gains s t) : Keeps s t := fun loc e he _ => gains loc e he

theorem gains_put {e : Entry} (free : s.entry? loc = none) : Gains s (s.put loc e) := by
  intro l f hl
  rw [entry?_put, if_neg]
  · exact hl
  · rintro rfl
    cases free.symm.trans hl

/-- A directory is created where nothing stands at what its path names. -/
theorem makeDir_eq_ok : s.makeDir cwd p = .ok t ↔ ∃ loc, Designates s cwd p loc ∧ s.entry? loc = none ∧
    t = s.put loc (.dir (s.masked 0o777)) := by
  unfold makeDir Designates
  cases hl : s.locate cwd p with
  | error cause => simp [bind, Except.bind]
  | ok slot =>
    obtain ⟨dir, name?, slash⟩ := slot
    cases name? with
    | none => simp [bind, Except.bind]
    | some n =>
      dsimp only [bind, Except.bind]
      cases he : s.entry? (dir ++ [n]) with
      | some e => simp [he]
      | none => simp [he, eq_comm, pure, Except.pure]

/-- Where a directory was created there is one. -/
theorem isDir_of_makeDir (h : s.makeDir cwd p = .ok t) : t.isDir cwd p := by
  obtain ⟨loc, names, he, rfl⟩ := makeDir_eq_ok.1 h
  obtain ⟨hc, front, n, dir, hf, rfl, short, _, k, hk, hl⟩ := designates_iff.1 names
  have keeps : Keeps s (s.put (dir ++ [n]) (.dir (s.masked 0o777))) := (gains_put he).keeps
  have new : Store.entry? (s.put (dir ++ [n]) (.dir (s.masked 0o777))) (dir ++ [n]) =
      some (.dir (s.masked 0o777)) := by rw [entry?_put, if_pos rfl]
  have whole : Leads (s.put (dir ++ [n]) (.dir (s.masked 0o777))) k (start cwd p) (bareSteps p)
      (dir ++ [n]) := by
    rw [hf]
    exact (hl.mono keeps).trans (.dir new short .here)
  have there := whole.stat? hc hk
  rw [found, new] at there
  exact isDir_iff.2 ⟨_, _, there⟩

end Store

end LuaTree
